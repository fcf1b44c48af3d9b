import UdpIpCore.Kernel.RxPoll
import UdpIpCore.Kernel.SkBuff
import UdpIpCore.Userspace.SharedCalls

/-!
# The data path of the network driver

`udp_core_ndo_start_xmit` and `udp_core_rx_poll` work on the rings and on socket buffers. Each
register and memory access is one transaction, between any two of which the PL may push and
pop; the kernel's calls are commands of their own.
-/

namespace UdpIpCore

namespace SharedRings

/-- One step of the PL, if it has anything to do: every packet that arrives is pushed, and a slot to transmit is fetched. -/
def proceed (d : SharedRings) (step : PlStep) : SharedRings := if d.legal step then d.move step else d

/-- Some steps of the PL. -/
def settle (d : SharedRings) (steps : List PlStep) : SharedRings := steps.foldl proceed d

variable {d d' d'' : SharedRings}

/-- A sender does not notice two steps. -/
theorem TxQuiet.trans (h : TxQuiet d d') (h' : TxQuiet d' d'') : TxQuiet d d'' where
  kept := fun hkept => h'.kept (h.kept hkept)
  pushed := h'.pushed.trans h.pushed
  transmitted := Nat.le_trans h.transmitted h'.transmitted
  memory := fun a ha => (h'.memory a ha).trans (h.memory a ha)
  low := fun hlow => h'.low (h.low hlow)

/-- A sender does not notice the PL. -/
theorem txQuiet_proceed (d : SharedRings) (step : PlStep) : TxQuiet d (d.proceed step) := by
  unfold proceed
  split
  · rename_i hlegal
    cases step with
    | receive other slot => exact .receive d other slot
    | transmit => exact .transmit hlegal
  · exact quiet_refl .tx d

/-- Nor any number of its steps. -/
theorem txQuiet_settle (d : SharedRings) (steps : List PlStep) : TxQuiet d (d.settle steps) := by
  induction steps generalizing d with
  | nil => exact quiet_refl .tx d
  | cons step steps ih => exact (txQuiet_proceed d step).trans (ih _)

end SharedRings

namespace Kernel

open Interaction

/-- The single steps of the data path. -/
inductive NetCmd
  /-- A register access, or the access of a byte of the DMA area. -/
  | access (c : Access)
  /-- `netdev_alloc_skb`. -/
  | netdevAllocSkb (size : ℕ)
  /-- `udp_core_pkt_decompose` has filled a socket buffer, which goes to `napi_gro_receive`. -/
  | napiGroReceive (bufferId : BufferIdx) (packet : UdpPacket)
  /-- `stats.rx_packets++`, and the bytes. -/
  | rxPackets (bytes : ℕ)
  /-- `napi_complete`. -/
  | napiComplete
  /-- `stats.tx_packets++`, and the bytes. -/
  | txPackets (bytes : ℕ)
  /-- `stats.tx_dropped++`. -/
  | txDropped
  /-- `dev_kfree_skb`. -/
  | kfreeSkb

/-- What a step returns. -/
abbrev NetCmd.Response : NetCmd → Type
  | access c => c.Response
  | netdevAllocSkb _ => Bool
  | napiGroReceive _ _ | rxPackets _ | napiComplete | txPackets _ | txDropped | kfreeSkb => Unit

/-- A function of the data path. -/
abbrev NetCode := Program NetCmd NetCmd.Response

/-- `struct net_device_stats`, as far as the driver counts. -/
structure NetStats where
  rxPackets : ℕ
  rxBytes : ℕ
  txPackets : ℕ
  txBytes : ℕ
  txDropped : ℕ
deriving DecidableEq

/-- What the kernel and the rings see of the data path. -/
inductive NetEvent
  /-- The control word of an empty ring was read. -/
  | readEmpty (idx : BufferIdx)
  /-- The control word of a ring with a packet was read, after so many pushes that found the ring full. -/
  | readFilled (idx : BufferIdx) (overruns : ℕ)
  /-- No socket buffer was allocated. -/
  | refused
  /-- A packet of a ring went to `napi_gro_receive`. -/
  | delivered (idx : BufferIdx) (packet : UdpPacket)
  /-- A slot was popped from a ring, after so many pushes that found the ring full. -/
  | popped (idx : BufferIdx) (slot : Slot) (overruns : ℕ)
  | napiComplete
  /-- 1 was written to `GIE`. -/
  | enableGie

/-- The device and the kernel under the driver. -/
structure NetHost where
  device : SharedRings
  /-- What the PL does before each access to come. -/
  moves : ℕ → List PlStep
  /-- What `netdev_alloc_skb` returns to each call to come. -/
  skbs : ℕ → Bool
  stats : NetStats
  /-- The calls of `dev_kfree_skb`. -/
  freed : ℕ
  events : List NetEvent

namespace NetHost

/-- The device after reset with every socket open, and a driver that has counted nothing. -/
def boot (moves : ℕ → List PlStep) (skbs : ℕ → Bool) : NetHost where
  device := SharedRings.start (fun _ => true) fun _ => 0
  moves := moves
  skbs := skbs
  stats := ⟨0, 0, 0, 0, 0⟩
  freed := 0
  events := []

/-- After reset the TX ring is empty. -/
theorem txKept_boot (moves : ℕ → List PlStep) (skbs : ℕ → Bool) : SharedRings.TxKept (boot moves skbs).device :=
  SharedRings.kept_start _ _ .tx

/-- The events of an access. -/
def accessEvents (d : SharedRings) : Access → List NetEvent
  | .readReg reg =>
    match ConfigRegs.ringOf reg with
    | some idx => if (d.rx idx).ring.empty then [.readEmpty idx] else [.readFilled idx (d.rx idx).overruns]
    | none => []
  | .writeReg reg value =>
    match ConfigRegs.ringOf reg with
    | some idx =>
      if !SharedRings.popped d.regs idx && value.getLsbD bufferPoppedOffset then
        [.popped idx (d.rxSlot idx (d.rx idx).ring.tailIndex) (d.rx idx).overruns]
      else []
    | none => if reg = RegAddr.gie ∧ value.getLsbD 0 = true then [.enableGie] else []
  | .load _ | .store _ _ => []

/-- The rings at the next access. -/
def settled (h : NetHost) : SharedRings := h.device.settle (h.moves 0)

/-- One step of the driver. -/
def execute (h : NetHost) : (c : NetCmd) → c.Response × NetHost
  | .access c =>
    ((h.settled.execute c).1, { h with
      device := (h.settled.execute c).2
      moves := fun n => h.moves (n + 1)
      events := h.events ++ accessEvents h.settled c })
  | .netdevAllocSkb _ =>
    (h.skbs 0, { h with
      skbs := fun n => h.skbs (n + 1)
      events := h.events ++ if h.skbs 0 then [] else [.refused] })
  | .napiGroReceive bufferId packet => ((), { h with events := h.events ++ [.delivered bufferId packet] })
  | .rxPackets bytes =>
    ((), { h with stats := { h.stats with rxPackets := h.stats.rxPackets + 1, rxBytes := h.stats.rxBytes + bytes } })
  | .napiComplete => ((), { h with events := h.events ++ [.napiComplete] })
  | .txPackets bytes =>
    ((), { h with stats := { h.stats with txPackets := h.stats.txPackets + 1, txBytes := h.stats.txBytes + bytes } })
  | .txDropped => ((), { h with stats := { h.stats with txDropped := h.stats.txDropped + 1 } })
  | .kfreeSkb => ((), { h with freed := h.freed + 1 })

/-- A whole program. -/
def run {α : Type} (h : NetHost) (p : NetCode α) : α × NetHost := p.eval execute h

/-- The program ends with the postcondition. -/
def Ends {α : Type} (h : NetHost) (p : NetCode α) (post : α → NetHost → Prop) : Prop := post (h.run p).1 (h.run p).2

end NetHost

/-- Accesses to the device are steps of the driver. -/
def accesses {α : Type} : UserCode α → NetCode α
  | .done a => .done a
  | .perform c next => .perform (.access c) fun r => accesses (next r)

namespace NetHost

variable {α β : Type} {h : NetHost} {post : β → NetHost → Prop}

/-- A weaker postcondition. -/
theorem Ends.mono {p : NetCode α} {pre post : α → NetHost → Prop} (hp : h.Ends p pre)
    (hpost : ∀ a h', pre a h' → post a h') : h.Ends p post := hpost _ _ hp

/-- Nothing is left to do. -/
theorem Ends.pure {a : α} {post : α → NetHost → Prop} (hpost : post a h) : h.Ends (Pure.pure a) post := hpost

/-- Sequencing. -/
theorem Ends.bind {p : NetCode α} {f : α → NetCode β} (hp : h.Ends p fun a h' => h'.Ends (f a) post) :
    h.Ends (p >>= f) post := by
  rw [Ends, run, Program.eval_bind]
  exact hp

/-- A single step. -/
theorem Ends.command {c : NetCmd} {post : c.Response → NetHost → Prop} (hpost : post (h.execute c).1 (h.execute c).2) :
    h.Ends (Program.command c) post := hpost

/-- A register access or the access of a byte. -/
theorem Ends.access {c : Access} {next : c.Response → UserCode β}
    (hnext : (h.execute (.access c)).2.Ends (accesses (next (h.settled.execute c).1)) post) :
    h.Ends (accesses (.perform c next)) post := hnext

/-- A register is read first. -/
theorem Ends.readReg {reg : RegAddr} {next : BitVec 32 → UserCode β}
    (hnext : (h.execute (.access (.readReg reg))).2.Ends (accesses (next (h.settled.regs.read h.settled.status reg))) post) :
    h.Ends (accesses (Udriver.readReg reg >>= next)) post := hnext

/-- The accesses of a sequence. -/
theorem Ends.accesses_bind {p : UserCode α} {f : α → UserCode β}
    (hp : h.Ends (accesses p) fun a h' => h'.Ends (accesses (f a)) post) : h.Ends (accesses (p >>= f)) post := by
  induction p generalizing h with
  | done a => exact hp
  | perform c next ih => exact ih _ hp

end NetHost

end Kernel

end UdpIpCore
