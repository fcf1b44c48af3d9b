import UdpIpCore.Rtl.AxisHeaderAdder

/-!
# The packet source in front of the RX path

The UDP stack presents one packet at a time. It raises `hdr_valid` with the header
fields, starts the payload at least one cycle later, and raises the header of the next
packet only after the last payload beat was accepted and the header was taken. How long
the header stays up, when beats are driven and when the next packet comes is left to the
inputs of each cycle.
-/

namespace UdpIpCore

/-- A received packet: its header and a payload frame that ends at its only `tlast`. -/
structure Packet where
  hdr : UdpHeader
  payload : List Beat
  nonempty : 0 < payload.length
  framed : ∀ j (h : j < payload.length), payload[j].tlast = decide (j + 1 = payload.length)

instance : DecidableEq Packet := fun p q =>
  decidable_of_iff (p.hdr = q.hdr ∧ p.payload = q.payload) (by cases p; cases q; simp)

namespace Packet

/-- A one-beat packet, also the content of the header registers before the first packet. -/
def single (hdr : UdpHeader) (tdata : BitVec 64) (tkeep : BitVec 8) : Packet where
  hdr := hdr
  payload := [⟨tdata, tkeep, true, false⟩]
  nonempty := by simp
  framed := by simp

end Packet

/-- Where the source is: the packet presented last and how much of it was accepted. -/
structure Source where
  hdrValid : Bool
  /-- The header rose in this cycle. -/
  fresh : Bool
  pkt : Packet
  /-- Payload beats accepted so far. -/
  pos : ℕ

namespace Source

/-- Nothing is presented; the header registers hold the fields of `p`. -/
def quiet (p : Packet) : Source := ⟨false, false, p, p.payload.length⟩

/-- The payload beat offered in a cycle in which `tvalid` is driven. -/
def offered (s : Source) (drive : Bool) : Option Beat :=
  if drive then s.pkt.payload[s.pos]? else none

/-- Position after the cycle. -/
def posNext (s : Source) (accepted : Bool) : ℕ := if accepted then s.pos + 1 else s.pos

/-- `hdr_valid` after the cycle, when no new packet is announced. -/
def hdrValidNext (s : Source) (drop : Bool) : Bool := s.hdrValid && !drop

/-- One clock edge: a beat may be accepted, the header taken, the next packet announced. -/
def step (s : Source) (accepted drop : Bool) (next : Option Packet) : Source :=
  match next with
  | some p => ⟨true, true, p, 0⟩
  | none => ⟨s.hdrValidNext drop, false, s.pkt, s.posNext accepted⟩

/-- Payload starts at least one cycle after its header rose and stops after the last beat. -/
def MayDrive (s : Source) (drive : Bool) : Prop :=
  drive = true → s.fresh = false ∧ s.pos < s.pkt.payload.length

/-- The next header rises only once the current packet was taken completely. -/
def MayAnnounce (s : Source) (accepted drop : Bool) (next : Option Packet) : Prop :=
  next.isSome = true → s.posNext accepted = s.pkt.payload.length ∧ s.hdrValidNext drop = false

instance (s : Source) (drive : Bool) : Decidable (s.MayDrive drive) :=
  inferInstanceAs (Decidable (_ → _))

instance (s : Source) (accepted drop : Bool) (next : Option Packet) :
    Decidable (s.MayAnnounce accepted drop next) := inferInstanceAs (Decidable (_ → _))

@[simp] theorem offered_false (s : Source) : s.offered false = none := rfl

/-- A beat is offered exactly when the source drives and payload is left. -/
theorem isSome_offered (s : Source) (drive : Bool) :
    (s.offered drive).isSome = (drive && decide (s.pos < s.pkt.payload.length)) := by
  cases drive with
  | false => rfl
  | true =>
    by_cases h : s.pos < s.pkt.payload.length
    · simp [offered, h]
    · simp [offered, h]

/-- The offered beat is the last one exactly when one beat is left. -/
theorem any_tlast_offered (s : Source) (drive : Bool) :
    (s.offered drive).any Beat.tlast = (drive && decide (s.pos + 1 = s.pkt.payload.length)) := by
  cases drive with
  | false => rfl
  | true =>
    rw [offered, if_pos rfl, Bool.true_and]
    by_cases h : s.pos < s.pkt.payload.length
    · rw [List.getElem?_eq_getElem h, Option.any_some, s.pkt.framed _ h]
    · rw [List.getElem?_eq_none (by omega), Option.any_none]
      symm
      simp
      omega

/-- Taking the offered beat extends the accepted prefix by one. -/
theorem take_offered (s : Source) (h : s.pos < s.pkt.payload.length) :
    s.pkt.payload.take s.pos ++ (s.offered true).toList = s.pkt.payload.take (s.pos + 1) := by
  rw [offered, if_pos rfl, List.getElem?_eq_getElem h, Option.toList_some,
    List.take_append_getElem h]

end Source

end UdpIpCore
