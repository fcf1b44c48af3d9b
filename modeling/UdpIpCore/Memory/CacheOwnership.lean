import UdpIpCore.Memory.CachedSlots
import UdpIpCore.Userspace.SharedCalls

/-!
# Ownership of cached slots

Runs of calls of both drivers on cached slots. What is pushed is the packet that was sent, and
what is received is what the memory holds, as long as the cache itself has written back what
a sender wrote before `udriver_send` syncs in the wrong direction, and as long as no line of
an RX slot stays in the cache from an earlier packet.
-/

namespace UdpIpCore

open Interaction Clocked WriteBack

namespace CachedRings

variable {size : LineSize} {d d' : CachedRings} {sent : List HeaderedPacket} {m : ℕ} {bytes : List (BitVec 8)}

section Outlines

open CachedDriver

variable {α β : Type} {inv : CachedRings → Prop} {post : β → CachedRings → Prop}

/-- What the device answers to an access that may be performed. -/
abbrev Answers (size : LineSize) : CachedRings → (c : CacheAccess) → c.Response → CachedRings → Prop :=
  Caller.Responds (device size) (Owned size)

/-- A command with an assertion before it that nothing else disturbs. -/
theorem outline_command {c : CacheAccess} {f : c.Response → CachedCode β} (during : CachedRings → Prop)
    (hd : during d) (hgood : ∀ d, during d → Good size d)
    (hunnoticed : ∀ d d', during d → Unnoticed size d d' → during d') (huse : ∀ d, during d → inv d)
    (hnext : ∀ d, during d → Owned size d c →
      (f (execute size d c).1).Outline (Caller.Quiet (device size)) (Answers size) inv post (execute size d c).2) :
    ((Program.command c : CachedCode c.Response) >>= f).Outline (Caller.Quiet (device size)) (Answers size) inv post d := by
  refine .perform during hd (fun d d' h hq => hunnoticed d d' h (unnoticed_of_quiet (hgood d h) hq)) huse ?_
  intro d r d' h hanswer
  obtain ⟨hready, hexecute⟩ := hanswer
  obtain ⟨rfl, rfl⟩ : (execute size d c).1 = r ∧ (execute size d c).2 = d' := Prod.mk.inj hexecute
  exact hnext d h hready

/-- The bytes of a list are placed one after the other. -/
theorem outline_xrtBOWrite (huse : ∀ bytes d, Placing size sent m bytes d → inv d) (rest : List (BitVec 8)) :
    ∀ {bytes : List (BitVec 8)} {d : CachedRings}, Placing size sent m bytes d →
      (uncached (Udriver.xrtBOWrite (TxRing.slotOffset m + bytes.length) rest)).Outline (Caller.Quiet (device size))
        (Answers size) inv (fun _ => Placing size sent m (bytes ++ rest)) d := by
  induction rest with
  | nil =>
    intro bytes d h
    refine .done (Placing size sent m bytes) h (fun d d' h hq => h.unnoticed (unnoticed_of_quiet h.good hq))
      fun d h => ⟨huse bytes d h, ?_⟩
    rw [List.append_nil]
    exact h
  | cons b rest ih =>
    intro bytes d h
    refine outline_command (c := .plain (.store (TxRing.slotOffset m + bytes.length) b)) (Placing size sent m bytes) h
      (fun d h => h.good) (fun d d' h => h.unnoticed) (huse bytes) fun d h _ => ?_
    have hrest := ih (h.store b)
    rw [List.length_append, List.length_singleton, ← Nat.add_assoc, List.append_assoc] at hrest
    exact hrest

/-- Returning when nothing is under way. -/
theorem outline_return {sent : List HeaderedPacket} (a : β) (hd : ∃ m, Placing size sent m [] d)
    (huse : ∀ d, (∃ m, Placing size sent m [] d) → inv d ∧ post a d) :
    (pure a : CachedCode β).Outline (Caller.Quiet (device size)) (Answers size) inv post d := by
  refine .done (fun d => ∃ m, Placing size sent m [] d) hd (fun d d' h hq => ?_) huse
  obtain ⟨m, h⟩ := h
  exact ⟨m, h.unnoticed (unnoticed_of_quiet h.good hq)⟩

/-- Sending a packet that fits a slot. -/
theorem outline_sendSynced {direction : SyncDirection} {totalSize : ℕ} {p : HeaderedPacket} (hfits : p.Fits)
    (hsize : p.bytes.length ≤ totalSize) {post : Bool → CachedRings → Prop}
    (hbefore : ∀ d, Good size d → PushedExactly sent d → inv d)
    (hafter : ∀ d, Good size d → PushedExactly (sent ++ [p]) d → inv d)
    (hfull : ∀ d, (∃ m, Placing size sent m [] d) → post false d)
    (hsent : ∀ d, (∃ m, Placing size (sent ++ [p]) m [] d) → post true d) (hd : Placing size sent m [] d) :
    (sendSynced direction totalSize p).Outline (Caller.Quiet (device size)) (Answers size) inv post d := by
  have huse (bytes : List (BitVec 8)) (d : CachedRings) (h : Placing size sent m bytes d) : inv d :=
    hbefore d h.good h.pushed
  refine outline_command (c := .plain (.readReg RegAddr.buftxFull)) (Placing size sent m []) hd (fun d h => h.good)
    (fun d d' h => h.unnoticed) (huse []) fun d h _ => ?_
  split
  · exact outline_return false ⟨m, h⟩ fun d h => ⟨h.elim fun m h => hbefore d h.good h.pushed, hfull d h⟩
  · refine outline_command (c := .plain (.readReg RegAddr.buftxHead)) (Placing size sent m []) h (fun d h => h.good)
      (fun d d' h => h.unnoticed) (huse []) fun d h _ => ?_
    have hoffset : Udriver.bufTxOffsetBytes + (BitVec.toNat (execute size d (.plain (.readReg RegAddr.buftxHead))).1) *
        bufferElemMaxSize = TxRing.slotOffset m := by
      rw [← h.head]
      exact congrArg (fun index => Udriver.bufTxOffsetBytes + index * bufferElemMaxSize) (toNat_head h.good)
    dsimp only
    rw [hoffset]
    refine Program.Outline.bind ((outline_xrtBOWrite huse p.header h).mono fun _ d h => ?_)
    rw [List.nil_append] at h
    have hpayload := outline_xrtBOWrite huse p.payload h
    rw [p.header_length] at hpayload
    refine Program.Outline.bind (hpayload.mono fun _ d h => ?_)
    refine outline_command (c := .sync direction (TxRing.slotOffset m) totalSize) (Placing size sent m p.bytes) h
      (fun d h => h.good) (fun d d' h => h.unnoticed) (huse p.bytes) fun d h hready => ?_
    refine outline_command (c := .plain (.writeReg RegAddr.buftxPushed 0)) (Flushed size sent m p.bytes)
      (h.sync hready hsize) (fun d h => h.good) (fun d d' h => h.unnoticed) (fun d h => huse p.bytes d h.toPlacing)
      fun d h _ => ?_
    refine outline_command (c := .plain (.writeReg RegAddr.buftxPushed 1)) (Flushed size sent m p.bytes) h.clear
      (fun d h => h.good) (fun d d' h => h.unnoticed) (fun d h => huse p.bytes d h.toPlacing) fun d h _ => ?_
    refine outline_command (c := .plain (.writeReg RegAddr.buftxPushed 0)) (Pushing size (sent ++ [p])) (h.push hfits)
      (fun d h => h.good) (fun d d' h => h.unnoticed) (fun d h => hafter d h.good h.pushed) fun d h _ => ?_
    exact outline_return true h.clear fun d h => ⟨h.elim fun m h => hafter d h.good h.pushed, hsent d h⟩

/-- The accesses of a receiver. -/
def Receives : Access → Prop
  | .readReg _ => True
  | .writeReg reg _ => reg ≠ RegAddr.buftxPushed
  | .load _ => True
  | .store _ _ => False

/-- A receiver leaves the TX ring. -/
theorem outline_uncached {p : UserCode α} (hwithin : p.Within Receives) (hd : Placing size sent m bytes d)
    (huse : ∀ d, Placing size sent m bytes d → inv d) :
    (uncached p).Outline (Caller.Quiet (device size)) (Answers size) inv (fun _ => Placing size sent m bytes) d := by
  induction p generalizing d with
  | done a =>
    exact .done (Placing size sent m bytes) hd (fun d d' h hq => h.unnoticed (unnoticed_of_quiet h.good hq))
      fun d h => ⟨huse d h, h⟩
  | perform c next ih =>
    refine outline_command (c := .plain c) (Placing size sent m bytes) hd (fun d h => h.good)
      (fun d d' h => h.unnoticed) huse fun d h _ => ?_
    cases c with
    | readReg reg => exact ih _ (hwithin.2 _) h
    | writeReg reg value => exact ih _ (hwithin.2 _) (h.unnoticed (unnoticed_writeReg h.good hwithin.1 value))
    | load offset => exact ih _ (hwithin.2 _) h
    | store offset value => exact hwithin.1.elim

end Outlines

section Receivers

open Udriver

theorem within_readReg (reg : RegAddr) : (readReg reg).Within Receives :=
  Program.Within.command (R := Access.Response) trivial

theorem within_writeReg {reg : RegAddr} (hreg : reg ≠ RegAddr.buftxPushed) (value : BitVec 32) :
    (writeReg reg value).Within Receives :=
  Program.Within.command (R := Access.Response) hreg

theorem bufferRxCtrl_ne_buftxPushed (idx : BufferIdx) : ConfigRegs.bufferRxCtrl idx.toNat ≠ RegAddr.buftxPushed := by
  intro heq
  have hring := ConfigRegs.ringOf_toNat idx
  rw [heq, SharedRings.ringOf_buftxPushed] at hring
  exact nomatch hring

theorem within_notifyPopToRxBuffer (idx : BufferIdx) : (notifyPopToRxBuffer idx.toNat).Within Receives := by
  have hwrite (value : BitVec 32) : (writeReg (ConfigRegs.bufferRxCtrl idx.toNat) value).Within Receives :=
    within_writeReg (bufferRxCtrl_ne_buftxPushed idx) value
  refine Program.Within.bind (within_readReg _) fun value => ?_
  exact Program.Within.bind (hwrite _) fun _ => Program.Within.bind (hwrite _) fun _ => hwrite _

theorem within_load (size offset : ℕ) : (xrtBORead offset size).Within Receives :=
  SharedRings.within_xrtBORead (fun _ => trivial) size offset

theorem within_udriverRecv (idx : BufferIdx) : (udriverRecv idx.toNat).Within Receives := by
  refine Program.Within.bind (within_readReg _) fun reg => ?_
  split
  · exact Program.Within.pure _
  · refine Program.Within.bind (within_load _ _) fun header => Program.Within.bind (within_load _ _) fun payload => ?_
    exact Program.Within.bind (within_notifyPopToRxBuffer idx) fun _ => Program.Within.pure _

theorem within_rxPollPass (budget : ℕ) (alloc : ℕ → Bool) (ports : List BufferIdx) (p : Kernel.PollProgress) :
    (Kernel.rxPollPass budget alloc ports p).Within Receives := by
  induction ports generalizing p with
  | nil => exact Program.Within.pure _
  | cons bufferId rest ih =>
    unfold Kernel.rxPollPass
    split
    · exact Program.Within.pure _
    · refine Program.Within.bind (within_readReg _) fun reg => ?_
      split
      · exact ih p
      · refine Program.Within.bind (within_load _ _) fun header => ?_
        split
        · exact Program.Within.pure _
        · refine Program.Within.bind (within_load _ _) fun payload => ?_
          exact Program.Within.bind (within_notifyPopToRxBuffer bufferId) fun _ => ih _

theorem within_rxPollLoop (budget : ℕ) (alloc : ℕ → Bool) (ports : List BufferIdx) (passes : ℕ) (p : Kernel.PollProgress) :
    (Kernel.rxPollLoop budget alloc ports passes p).Within Receives := by
  induction passes generalizing p with
  | zero => exact Program.Within.pure _
  | succ passes ih =>
    refine Program.Within.bind (within_rxPollPass budget alloc ports _) fun p => ?_
    split
    · exact ih p
    · exact Program.Within.pure _

theorem within_rxPoll (budget : ℕ) (alloc : ℕ → Bool) (ports : List BufferIdx) (passes : ℕ) :
    (Kernel.rxPoll budget alloc ports passes).Within Receives := by
  refine Program.Within.bind (within_rxPollLoop budget alloc ports passes _) fun progress => ?_
  obtain ⟨finished, p⟩ := progress
  have hgie : RegAddr.gie ≠ RegAddr.buftxPushed := by decide
  dsimp only
  split
  · exact Program.Within.bind (within_writeReg hgie 1) fun _ => Program.Within.pure _
  · exact Program.Within.pure _

end Receivers

section Runs

open CacheCall

/-- What the calls keep: the pushed slots hold the packets that were sent, and a call in progress may have pushed its own. -/
def promise (size : LineSize) : Caller.Promise CachedRings CacheCall Bool where
  idle results d := ∃ m, Placing size (CacheCall.sent results) m [] d
  busy results call d := Good size d ∧ (PushedExactly (CacheCall.sent results) d ∨
    ∃ p, call.packet = some p ∧ PushedExactly (CacheCall.sent results ++ [p]) d)

theorem sent_append_false (results : List (CacheCall × Bool)) (call : CacheCall) :
    CacheCall.sent (results ++ [(call, false)]) = CacheCall.sent results := by
  rw [CacheCall.sent, List.filterMap_append]
  exact List.append_nil _

theorem sent_append_true (results : List (CacheCall × Bool)) {call : CacheCall} {p : HeaderedPacket}
    (hp : call.packet = some p) : CacheCall.sent (results ++ [(call, true)]) = CacheCall.sent results ++ [p] := by
  rw [CacheCall.sent, List.filterMap_append]
  simp [CacheCall.sent, hp]

/-- A call that sends. -/
theorem outline_send (results : List (CacheCall × Bool)) {call : CacheCall} {p : HeaderedPacket} (hp : call.packet = some p)
    {direction : SyncDirection} {totalSize : ℕ} (hcode : call.code = CachedDriver.sendSynced direction totalSize p)
    (hfits : p.Fits) (hsize : p.bytes.length ≤ totalSize) (hd : (promise size).idle results d) :
    call.code.Outline (Caller.Quiet (device size)) (Answers size) ((promise size).busy results call)
      (fun a => (promise size).idle (results ++ [(call, a)])) d := by
  obtain ⟨m, hd⟩ := hd
  rw [hcode]
  refine outline_sendSynced hfits hsize (fun d h hpushed => ⟨h, Or.inl hpushed⟩)
    (fun d h hpushed => ⟨h, Or.inr ⟨p, hp, hpushed⟩⟩) (fun d h => ?_) (fun d h => ?_) hd
  · change ∃ m, Placing size (CacheCall.sent (results ++ [(call, false)])) m [] d
    rw [sent_append_false]
    exact h
  · change ∃ m, Placing size (CacheCall.sent (results ++ [(call, true)])) m [] d
    rw [sent_append_true results hp]
    exact h

/-- A call that receives. -/
theorem outline_receive {α : Type} (results : List (CacheCall × Bool)) {call : CacheCall} {p : UserCode α}
    (hcode : call.code = CachedDriver.uncached p >>= fun _ => pure false) (hwithin : p.Within Receives)
    (hd : (promise size).idle results d) :
    call.code.Outline (Caller.Quiet (device size)) (Answers size) ((promise size).busy results call)
      (fun a => (promise size).idle (results ++ [(call, a)])) d := by
  obtain ⟨m, hd⟩ := hd
  have huse (d : CachedRings) (m : ℕ) (h : Placing size (CacheCall.sent results) m [] d) :
      (promise size).busy results call d := ⟨h.good, Or.inl h.pushed⟩
  rw [hcode]
  refine Program.Outline.bind ((outline_uncached hwithin hd fun d h => huse d m h).mono fun _ d h => ?_)
  refine outline_return false ⟨m, h⟩ fun d h => ⟨h.elim fun m h => huse d m h, ?_⟩
  change ∃ m, Placing size (CacheCall.sent (results ++ [(call, false)])) m [] d
  rw [sent_append_false]
  exact h

theorem lawful : (promise size).Lawful (device size) CacheCall.code Sendable (Owned size) where
  quiet results d d' hidle hquiet := by
    obtain ⟨m, h⟩ := hidle
    exact ⟨m, h.unnoticed (unnoticed_of_quiet h.good hquiet)⟩
  call results call d hsendable hidle := by
    have hlength (p : HeaderedPacket) : p.bytes.length = Udriver.packetHdrSizeBytes + p.payload.length := by
      rw [HeaderedPacket.bytes, List.length_append, p.header_length]
    cases call with
    | udriverSend p =>
      have hfits : p.Fits := hsendable p rfl
      have hwide := Nat.mod_eq_of_lt (Nat.lt_of_le_of_lt hfits (by decide : bufferElemMaxSize < 2 ^ 32))
      exact outline_send results rfl rfl hfits (Nat.le_of_eq ((hlength p).trans hwide.symm)) hidle
    | udriverRecv idx => exact outline_receive results rfl (within_udriverRecv idx) hidle
    | ndoStartXmit p =>
      exact outline_send results rfl rfl (hsendable p rfl) (Nat.le_of_eq ((hlength p).trans (Nat.add_comm _ _))) hidle
    | rxPoll budget alloc ports passes => exact outline_receive results rfl (within_rxPoll budget alloc ports passes) hidle

/-- The ownership discipline, in a state and in the next step. -/
structure Disciplined (size : LineSize) (s : Caller CacheAccess CacheAccess.Response CacheCall Bool CachedRings)
    (i : CallerStep CacheCall CacheMove) : Prop where
  /-- At their push the slots held the packets that were sent; a call in progress may have pushed its own. -/
  pushed : PushedExactly (CacheCall.sent s.results) s.device ∨ ∃ call program p,
    s.running = some (call, program) ∧ call.packet = some p ∧ PushedExactly (CacheCall.sent s.results ++ [p]) s.device
  /-- A byte that is copied from an RX slot is the one in the memory. -/
  copied : ∀ a, s.Performs i (.plain (.load a)) → a < Udriver.bufTxOffsetBytes →
    (execute size s.device (.plain (.load a))).1 = s.device.rings.memory a

theorem start_placing (opened : BufferIdx → Bool) (control : RegAddr → BitVec 32) (memory : ℕ → BitVec 8) :
    (promise size).idle [] (start opened control memory) := by
  have hgood : Good size (start opened control memory) := by
    refine ⟨Cached.coherent_empty _ _, fun idx => ?_, ?_⟩
    · exact (by decide : 0 < bufferRxLength)
    · exact (by decide : 0 < bufferTxLength)
  exact ⟨0, hgood, rfl, .nil, rfl, nofun⟩

/-- In every run in which the packets fit, no byte is loaded from a line that the device has outdated and no sync from the
device drops a line that was written, the discipline is kept. -/
theorem disciplined_of_owned (size : LineSize) (opened : BufferIdx → Bool) (control : RegAddr → BitVec 32)
    (memory : ℕ → BitVec 8) :
    ((Caller.machine (device size) CacheCall.code).restrict fun s i => s.Careful Sendable (Owned size) i).Always
      (Caller.start (start opened control memory)) (Disciplined size) := by
  intro s hreach i hi
  have hholds := Caller.holds_of_careful lawful (start_placing opened control memory) hreach
  have hgood : Good size s.device := by
    unfold Caller.Holds at hholds
    split at hholds
    · obtain ⟨m, h⟩ := hholds
      exact h.good
    · exact hholds.1
  constructor
  · unfold Caller.Holds at hholds
    split at hholds
    · obtain ⟨m, h⟩ := hholds
      exact Or.inl h.pushed
    · rename_i call program hrunning
      obtain ⟨-, hsame | ⟨p, hp, hpushed⟩⟩ := hholds
      · exact Or.inl hsame
      · exact Or.inr ⟨call, program, p, hrunning, hp, hpushed⟩
  · intro a hperforms ha
    have hcurrent : ¬ s.device.cached.Outdated size.bytes a := hi.2.2 _ hperforms
    have hclean : ¬ s.device.cached.Dirty (a / size.bytes) := by
      intro hdirty
      obtain ⟨l, hl, hdirty⟩ := hdirty
      exact absurd (hgood.coherent.processor a l hl hdirty) (Nat.not_le_of_lt ha)
    exact (hgood.coherent.read_eq hcurrent).trans (Cached.owned_of_not_dirty hclean)

/-- Lines of 64 bytes. -/
def line64 : LineSize := ⟨64, by decide, ⟨32, rfl⟩⟩

/-- A packet of 3 bytes. -/
def threeBytes : Slot := fun k => if k = 0 then 3 else 0

instance (d : CachedRings) : (c : CacheAccess) → Decidable (Owned size d c)
  | .plain (.load _) => inferInstanceAs (Decidable (¬ _))
  | .sync .fromDevice offset length =>
    decidable_of_iff (∀ k < length + 2, InRange size.bytes offset length (offset / size.bytes + k) →
        ¬ d.cached.Dirty (offset / size.bytes + k))
      ⟨fun h n hn => by
        obtain ⟨k, hk, rfl⟩ := exists_of_inRange size.pos hn
        exact h k hk hn, fun h k _ => h _⟩
  | .plain (.readReg _) | .plain (.writeReg _ _) | .plain (.store _ _) | .sync .toDevice _ _ => instDecidableTrue

instance (call : CacheCall) : Decidable (Sendable call) := inferInstanceAs (Decidable (∀ p ∈ call.packet, p.Fits))

instance (d : CachedRings) : (m : CacheMove) → Decidable ((device size).legal d m)
  | .pl step => inferInstanceAs (Decidable (d.rings.legal step))
  | .fill _ | .evict _ => instDecidableTrue

instance (s : Caller CacheAccess CacheAccess.Response CacheCall Bool CachedRings) (i : CallerStep CacheCall CacheMove) :
    Decidable (((Caller.machine (device size) CacheCall.code).restrict fun s i => s.Careful Sendable (Owned size) i).legal s i) :=
  inferInstanceAs (Decidable (_ ∧ _))

/-- A packet of 2 bytes. -/
def twoBytePacket : HeaderedPacket := ⟨⟨2 :: List.replicate 39 0, [7, 8]⟩, rfl⟩

/-- The cache writes the packet back before `udriver_send` syncs; the line of the received packet is filled after it has
arrived. -/
def ownedRun : List (CallerStep CacheCall CacheMove) :=
  .call (.udriverSend twoBytePacket) :: (List.replicate 44 CallerStep.advance ++
    .move (.evict (TxRing.slotOffset 0 / 64)) :: (List.replicate 5 CallerStep.advance ++
      [.move (.pl (.receive 0 threeBytes)), .move (.fill 0), .call (.udriverRecv 0), .advance]))

/-- The run of these steps. -/
def ownedState : Caller CacheAccess CacheAccess.Response CacheCall Bool CachedRings :=
  (Caller.machine (device line64) CacheCall.code).run (Caller.start (start (fun _ => true) (fun _ => 0) fun _ => 0)) ownedRun

/-- Its packet was pushed, and the first byte of the other one is copied. -/
theorem disciplined_ownedState : (CacheCall.sent ownedState.results).length = 1 ∧
    ownedState.Performs (.advance : CallerStep CacheCall CacheMove) (.plain (.load 0)) ∧ Disciplined line64 ownedState .advance :=
  ⟨by decide +kernel, ⟨_, _, rfl, rfl⟩, disciplined_of_owned line64 (fun _ => true) (fun _ => 0) (fun _ => 0) _
    ⟨ownedRun, by decide +kernel, rfl⟩ .advance (by decide +kernel)⟩

/-- The first line is in the cache when a packet arrives in the first slot, and then the slot is read. -/
def staleRun : List (CallerStep CacheCall CacheMove) :=
  [.move (.fill 0), .move (.pl (.receive 0 threeBytes)), .call (.udriverRecv 0), .advance]

/-- `udriver_recv` copies a line that is older than the packet. -/
theorem not_disciplined : ¬ ∀ (size : LineSize) (opened : BufferIdx → Bool) (control : RegAddr → BitVec 32)
    (memory : ℕ → BitVec 8), (Caller.machine (device size) CacheCall.code).Always
      (Caller.start (start opened control memory)) (Disciplined size) := by
  intro hall
  have hlegal : (Caller.machine (device line64) CacheCall.code).Legal
      (Caller.start (start (fun _ => true) (fun _ => 0) fun _ => 0)) staleRun := ⟨trivial, trivial, rfl, trivial, trivial⟩
  have hdisciplined := hall line64 (fun _ => true) (fun _ => 0) (fun _ => 0) _ ⟨staleRun, hlegal, rfl⟩ .advance trivial
  have hcopied := hdisciplined.copied 0 ⟨_, _, rfl, rfl⟩ (by decide)
  exact absurd hcopied (by decide +kernel)

end Runs

end CachedRings

end UdpIpCore
