import UdpIpCore.Userspace.ConnectSend

/-!
# One datagram for each `sendto`

`sendto` repeats `udriver_send` until it returns a positive size. That ends with the first
packet unless the payload is empty, and the slot holds the packet unless the payload is
too long for it.
-/

namespace UdpIpCore

open Interaction

namespace UserHost

variable {α β : Type} (h : UserHost)

/-- The bytes of the shared memory a program writes, by their addresses. -/
def stores {α : Type} (h : UserHost) : UserCode α → List ℕ
  | .done _ => []
  | .perform (.readReg reg) next => h.afterRead.stores (next (h.regs.read (h.shows 0) reg))
  | .perform (.writeReg reg value) next => (h.afterWrite reg value).stores (next ())
  | .perform (.load offset) next => h.stores (next (h.memory offset))
  | .perform (.store offset value) next =>
    offset :: { h with memory := writeBytes h.memory offset [value] : UserHost }.stores (next ())

@[simp] theorem stores_pure (a : α) : h.stores (pure a : UserCode α) = [] := rfl

@[simp] theorem stores_readReg (reg : RegAddr) : h.stores (Udriver.readReg reg) = [] := rfl

@[simp] theorem stores_writeReg (reg : RegAddr) (value : BitVec 32) : h.stores (Udriver.writeReg reg value) = [] := rfl

/-- The writes of a sequence. -/
@[simp] theorem stores_bind (p : UserCode α) (f : α → UserCode β) :
    h.stores (p >>= f) = h.stores p ++ (h.run p).2.stores (f (h.run p).1) := by
  induction p generalizing h with
  | done a => rfl
  | perform c next ih =>
    cases c with
    | readReg reg => exact ih _ h.afterRead
    | writeReg reg value => exact ih () (h.afterWrite reg value)
    | load offset => exact ih _ h
    | store offset value => exact congrArg (List.cons _) (ih () _)

/-- A write to the shared memory writes its range. -/
@[simp] theorem stores_xrtBOWrite (offset : ℕ) (bytes : List (BitVec 8)) :
    h.stores (Udriver.xrtBOWrite offset bytes) = List.range' offset bytes.length := by
  induction bytes generalizing h offset with
  | nil => rfl
  | cons b bytes ih => exact congrArg (List.cons offset) (ih _ (offset + 1))

/-- A byte that is not written keeps its value. -/
theorem memory_of_not_stored {p : UserCode α} {a : ℕ} (ha : a ∉ h.stores p) : (h.run p).2.memory a = h.memory a := by
  induction p generalizing h with
  | done a => rfl
  | perform c next ih =>
    cases c with
    | readReg reg => exact ih _ h.afterRead ha
    | writeReg reg value => exact ih () (h.afterWrite reg value) ha
    | load offset => exact ih _ h ha
    | store offset value =>
      have hne : a ≠ offset := List.ne_of_not_mem_cons ha
      have hlater := ih () { h with memory := writeBytes h.memory offset [value] } (List.not_mem_of_not_mem_cons ha)
      have hkept : writeBytes h.memory offset [value] a = h.memory a := by
        rw [writeBytes]
        split
        · rw [List.getElem?_eq_none (by rw [List.length_singleton]; omega)]
          rfl
        · rfl
      exact hlater.trans hkept

/-- What the sender writes for one packet. -/
theorem stores_udriverSend (p : UdpPacket) : h.stores (Udriver.udriverSend p) =
    if (h.shows 0).buftxFull then []
    else
      let offset := Udriver.bufTxOffsetBytes + (h.shows 1).buftxHead.toNat * bufferElemMaxSize
      List.range' offset p.header.length ++ List.range' (offset + Udriver.packetHdrSizeBytes) p.payload.length := by
  have hfull : h.regs.read (h.shows 0) RegAddr.buftxFull = (BitVec.ofBool (h.shows 0).buftxFull).setWidth 32 := rfl
  have hhead : (h.regs.read (h.shows 1) RegAddr.buftxHead).toNat = (h.shows 1).buftxHead.toNat := by
    change ((h.shows 1).buftxHead.setWidth 32).toNat = _
    exact BitVec.toNat_setWidth_of_le (by decide)
  rw [Udriver.udriverSend, stores_bind, run_readReg, stores_readReg, hfull]
  cases (h.shows 0).buftxFull with
  | true => rfl
  | false =>
    have hroom : ¬ (BitVec.ofBool false).setWidth 32 ≠ 0 := by decide
    simp only [if_neg hroom, stores_bind, run_readReg, run_writeReg, run_xrtBOWrite, stores_readReg, stores_writeReg,
      stores_xrtBOWrite, stores_pure, List.append_nil, List.nil_append]
    rw [← hhead]
    rfl

/-- A write to the control word of a ring pushes no packet. -/
theorem pushes_afterWrite_ring {idx : BufferIdx} {reg : RegAddr} (hring : ConfigRegs.ringOf reg = some idx) (value : BitVec 32) :
    (h.afterWrite reg value).pushes = h.pushes := by
  have hne : reg ≠ RegAddr.buftxPushed := by
    have hnone : ConfigRegs.ringOf RegAddr.buftxPushed = none := by decide
    rintro rfl
    simp [hnone] at hring
  simp [afterWrite, ConfigRegs.write, hne]

end UserHost

namespace SocketLayer

open Udriver

variable (dev : UdpIpDevice)

/-- The bytes of a slot of the TX ring. -/
def TxSlotBytes (head : BitVec 5) (a : ℕ) : Prop :=
  bufTxOffsetBytes + head.toNat * bufferElemMaxSize ≤ a ∧ a < bufTxOffsetBytes + (head.toNat + 1) * bufferElemMaxSize

/-- One packet was pushed, and nothing but its slot was written. -/
structure SentOnce (h h' : UserHost) (stores : List ℕ) (head : BitVec 5) (p : UdpPacket) : Prop where
  pushes : h'.pushes = h.pushes + 1
  slot : ∀ k b, (p.header ++ p.payload)[k]? = some b → h'.memory (bufTxOffsetBytes + head.toNat * bufferElemMaxSize + k) = b
  stores : ∀ a ∈ stores, TxSlotBytes head a

/-- What `sendto` did: it failed without a write or a push, or it sent its packet once, at the head it was shown after
the first look at a ring with room, and has returned its size. -/
def SendsOnce (l : SocketLayer) (h : UserHost) (fd : Fd) (buf : List (BitVec 8)) (addr : SockaddrIn) (addrlen : BitVec 32)
    (attempts : ℕ) : Prop :=
  let code := l.sendto dev fd buf addr addrlen attempts
  let r := h.run code
  (∃ e, r.1.1 = some (.fail e) ∧ h.stores code = [] ∧ r.2.pushes = h.pushes) ∨
    r.1.1 = some (.value buf.length) ∧ ∃ first, RingFull (fun k => h.shows (readsBefore dev l h fd + k)) first ∧
      (h.shows (readsBefore dev l h fd + first)).buftxFull = false ∧
      SentOnce h r.2 (h.stores code) (h.shows (readsBefore dev l h fd + (first + 1))).buftxHead
        (txUdpPacket (r.1.2.socketFds fd).socket buf addr)

section Loop

variable {p : UdpPacket} {h : UserHost}

/-- The first look at a ring with room is one of them. -/
theorem first_unique {shows : ℕ → StatusInputs} {m n : ℕ} (hm : RingFull shows m) (hmfree : (shows m).buftxFull = false)
    (hn : RingFull shows n) (hnfree : (shows n).buftxFull = false) : m = n := by
  rcases Nat.lt_trichotomy m n with hlt | heq | hgt
  · rw [hn m hlt] at hmfree
    exact Bool.noConfusion hmfree
  · exact heq
  · rw [hm n hgt] at hnfree
    exact Bool.noConfusion hnfree

/-- The first look at a ring with room. -/
theorem exists_first_of_not_ringFull {shows : ℕ → StatusInputs} {attempts : ℕ} (hroom : ¬ RingFull shows attempts) :
    ∃ first rest, attempts = first + (rest + 1) ∧ RingFull shows first ∧ (shows first).buftxFull = false := by
  induction attempts with
  | zero => exact absurd (fun k hk => absurd hk (Nat.not_lt_zero k)) hroom
  | succ attempts ih =>
    by_cases hfull : RingFull shows attempts
    · refine ⟨attempts, 0, rfl, hfull, ?_⟩
      by_contra hlast
      refine hroom fun k hk => ?_
      rcases Nat.lt_or_eq_of_le (Nat.le_of_lt_succ hk) with hlt | rfl
      · exact hfull k hlt
      · exact Bool.not_eq_false _ ▸ hlast
    · obtain ⟨first, rest, rfl, hfirst, hfree⟩ := ih hfull
      exact ⟨first, rest + 1, rfl, hfirst, hfree⟩

/-- Once a packet was written to its slot and pushed. -/
def afterSend (h : UserHost) (head : BitVec 5) (p : UdpPacket) (reads : ℕ) : UserHost where
  regs := UserHost.pushedRegs h.regs
  memory := h.slotWritten head p
  pushes := h.pushes + 1
  shows := fun k => h.shows (k + reads)

/-- The bytes of a packet in its slot. -/
def packetRange (head : BitVec 5) (p : UdpPacket) : List ℕ :=
  let offset := bufTxOffsetBytes + head.toNat * bufferElemMaxSize
  List.range' offset p.header.length ++ List.range' (offset + packetHdrSizeBytes) p.payload.length

/-- The loop at the first look at a ring with room: a packet of a positive size ends it. -/
theorem run_sendLoop_room {first rest : ℕ} (hfull : RingFull h.shows first) (hfree : (h.shows first).buftxFull = false) :
    h.run (sendLoop p (first + (rest + 1))) =
      if sentb p true ≤ 0 then
        (afterSend h (h.shows (first + 1)).buftxHead p (first + 2)).run (sendLoop p rest)
      else (some (sentb p true), afterSend h (h.shows (first + 1)).buftxHead p (first + 2)) := by
  induction first generalizing h with
  | zero =>
    rw [Nat.zero_add, sendLoop, UserHost.run_bind, UserHost.run_udriverSend, hfree]
    simp only [Bool.false_eq_true, if_false]
    split <;> rfl
  | succ first ih =>
    have hfirst : (h.shows 0).buftxFull = true := hfull 0 (Nat.succ_pos _)
    have hrest : RingFull h.afterRead.shows first := fun k hk => hfull (k + 1) (Nat.succ_lt_succ hk)
    have hlater := ih hrest hfree
    rw [Nat.add_right_comm, sendLoop, UserHost.run_bind, UserHost.run_udriverSend, if_pos hfirst]
    simp only [if_pos (sentb_false p)]
    rw [hlater]
    rfl

/-- What it writes. -/
theorem stores_sendLoop_room {first rest : ℕ} (hfull : RingFull h.shows first) (hfree : (h.shows first).buftxFull = false) :
    h.stores (sendLoop p (first + (rest + 1))) = packetRange (h.shows (first + 1)).buftxHead p ++
      if sentb p true ≤ 0 then
        (afterSend h (h.shows (first + 1)).buftxHead p (first + 2)).stores (sendLoop p rest)
      else [] := by
  induction first generalizing h with
  | zero =>
    rw [Nat.zero_add, sendLoop, UserHost.stores_bind, UserHost.run_udriverSend, UserHost.stores_udriverSend, hfree]
    simp only [Bool.false_eq_true, if_false]
    split <;> rfl
  | succ first ih =>
    have hfirst : (h.shows 0).buftxFull = true := hfull 0 (Nat.succ_pos _)
    have hrest : RingFull h.afterRead.shows first := fun k hk => hfull (k + 1) (Nat.succ_lt_succ hk)
    have hlater := ih hrest hfree
    rw [Nat.add_right_comm, sendLoop, UserHost.stores_bind, UserHost.run_udriverSend, UserHost.stores_udriverSend,
      if_pos hfirst, if_pos hfirst]
    simp only [if_pos (sentb_false p), List.nil_append]
    rw [hlater]
    rfl

/-- A size that is not positive never ends the loop. -/
theorem run_sendLoop_none (hsize : sentb p true ≤ 0) (attempts : ℕ) : (h.run (sendLoop p attempts)).1 = none := by
  induction attempts generalizing h with
  | zero => rfl
  | succ attempts ih =>
    have hagain (sent : Bool) : sentb p sent ≤ 0 := by
      cases sent with
      | true => exact hsize
      | false => exact sentb_false p
    rw [sendLoop, UserHost.run_bind]
    simp only [if_pos (hagain _)]
    exact ih

/-- The bytes of a packet fit its slot exactly if the payload does. -/
theorem packetRange_in_slot_iff (head : BitVec 5) (hheader : p.header.length = packetHdrSizeBytes) :
    (∀ a ∈ packetRange head p, TxSlotBytes head a) ↔ p.payload.length ≤ 2008 := by
  simp only [packetRange, List.mem_append, List.mem_range'_1, TxSlotBytes, hheader, packetHdrSizeBytes, bufferElemMaxSize]
  constructor
  · intro h
    by_contra hlong
    have hlast := h (bufTxOffsetBytes + head.toNat * 2048 + 40 + 2008) (by omega)
    omega
  · intro hlen a ha
    omega

/-- The packet stands in its slot. -/
theorem memory_afterSend {head : BitVec 5} {reads : ℕ} (hheader : p.header.length = packetHdrSizeBytes) {k : ℕ} {b : BitVec 8}
    (hb : (p.header ++ p.payload)[k]? = some b) :
    (afterSend h head p reads).memory (bufTxOffsetBytes + head.toNat * bufferElemMaxSize + k) = b := by
  have hmemory : (afterSend h head p reads).memory = h.slotWritten head p := rfl
  rw [hmemory, UserHost.slotWritten]
  by_cases hk : k < packetHdrSizeBytes
  · rw [List.getElem?_append_left (by omega)] at hb
    rw [UserHost.writeBytes_of_lt (by omega), UserHost.writeBytes_of_getElem? _ _ hb]
  · obtain ⟨n, rfl⟩ := Nat.exists_eq_add_of_le (Nat.le_of_not_lt hk)
    rw [List.getElem?_append_right (by omega), hheader, Nat.add_sub_cancel_left] at hb
    rw [← Nat.add_assoc, UserHost.writeBytes_of_getElem? _ _ hb]

end Loop

/-- The size that a send returns is positive, for the sizes of payloads that fit a slot. -/
theorem sentb_of_fits {p : UdpPacket} (hmin : 1 ≤ p.payload.length) (hmax : p.payload.length ≤ 2008) :
    sentb p true = p.payload.length := by
  rw [sentb, if_pos rfl, BitVec.toInt_eq_toNat_of_lt, BitVec.toNat_ofNat, Nat.mod_eq_of_lt (by omega)]
  rw [BitVec.toNat_ofNat]
  omega

/-- The accesses of `bind` write no slot and push nothing. -/
theorem silent_bindPassed (h : UserHost) (fd : Fd) (addr : SockaddrIn) :
    h.stores (bindPassed dev fd addr) = [] ∧ (h.run (bindPassed dev fd addr)).2.memory = h.memory ∧
      (h.run (bindPassed dev fd addr)).2.pushes = h.pushes := by
  have hip (h : UserHost) : h.stores (bindIp addr) = [] ∧ (h.run (bindIp addr)).2.pushes = h.pushes := by
    rw [bindIp]
    split <;> exact ⟨rfl, rfl⟩
  have hport (h : UserHost) : h.stores (bindPort fd addr) = [] ∧ (h.run (bindPort fd addr)).2.pushes = h.pushes := by
    rw [bindPort]
    split <;> exact ⟨rfl, rfl⟩
  have hopen (h : UserHost) (port : BitVec 16) :
      h.stores (udriverSetSocketStatus dev (port.setWidth 32) udriverSocketOpen) = [] ∧
        (h.run (udriverSetSocketStatus dev (port.setWidth 32) udriverSocketOpen)).2.pushes = h.pushes := by
    rw [udriverSetSocketStatus]
    by_cases hrange : dev.InRange port
    · rw [if_neg ((dev.outside_iff port).not.mpr (not_not.mpr hrange))]
      refine ⟨rfl, ?_⟩
      simp only [UserHost.run_bind, UserHost.run_readReg, UserHost.run_writeReg, UserHost.run_pure]
      rw [dev.bufferId_toNat hrange, UserHost.pushes_afterWrite_ring _ (ConfigRegs.ringOf_of_lt (dev.sub_lt hrange))]
      rfl
    · rw [if_pos ((dev.outside_iff port).mpr hrange)]
      exact ⟨rfl, rfl⟩
  have hstores : h.stores (bindPassed dev fd addr) = [] := by
    simp only [bindPassed, UserHost.stores_bind, UserHost.stores_pure, (hip _).1, (hport _).1, (hopen _ _).1,
      List.append_nil]
  refine ⟨hstores, ?_, ?_⟩
  · funext a
    exact UserHost.memory_of_not_stored h (by simp [hstores])
  · simp only [bindPassed, UserHost.run_bind, UserHost.run_pure, (hip _).2, (hport _).2, (hopen _ _).2]

/-- A `bind` that passes its checks is its accesses and the new descriptor. -/
theorem bind_eq {l : SocketLayer} {fd : Fd} {addr : SockaddrIn} {addrlen : BitVec 32} (hbinds : l.Binds fd addr addrlen) :
    l.bind dev fd addr addrlen = bindPassed dev fd addr >>= fun r => pure (.value 0, l.boundTo fd r.1 r.2) := by
  obtain ⟨hstatus, hfamily, hlen⟩ := hbinds
  rw [SocketLayer.bind, if_neg (by simp [hstatus]), if_neg (by simp [hstatus]), if_neg (by simp [hfamily, hlen]),
    bindPassed, Program.bind_assoc]
  congr 1
  funext ip
  rw [Program.bind_assoc]
  congr 1
  funext port
  rw [Program.bind_assoc]
  rfl

/-- A call of `sendto` comes down to one on a bound descriptor, after the reads of the implicit `bind`. -/
structure Prepared (l l' : SocketLayer) (h h' : UserHost) (fd : Fd) : Prop where
  shows : h'.shows = fun k => h.shows (readsBefore dev l h fd + k)
  pushes : h'.pushes = h.pushes
  sendto : ∀ (buf : List (BitVec 8)) (addr : SockaddrIn) (addrlen : BitVec 32) (attempts : ℕ),
    h.run (l.sendto dev fd buf addr addrlen attempts) = h'.run (l'.sendtoBound fd buf addr addrlen attempts) ∧
      h.stores (l.sendto dev fd buf addr addrlen attempts) = h'.stores (l'.sendtoBound fd buf addr addrlen attempts)

/-- An assigned descriptor is bound, or is bound first. -/
theorem exists_prepared (l : SocketLayer) (h : UserHost) {fd : Fd} (hfd : (l.socketFds fd).status ≠ .notAssigned) :
    ∃ l' h', Prepared dev l l' h h' fd := by
  cases hstatus : (l.socketFds fd).status with
  | notAssigned => exact absurd hstatus hfd
  | bound =>
    have hreads : readsBefore dev l h fd = 0 := if_pos hstatus
    refine ⟨l, h, ?_, rfl, fun buf addr addrlen attempts => ?_⟩
    · rw [hreads]
      simp
    · rw [SocketLayer.sendto, if_neg (by simp [hstatus]), if_neg (by simp [hstatus])]
      exact ⟨rfl, rfl⟩
  | initialized =>
    obtain ⟨hstores, -, hpushes⟩ := silent_bindPassed dev h fd ephemeral
    have hreads : readsBefore dev l h fd = if dev.InRange (chosenPort h.regs fd ephemeral) then 3 else 2 :=
      if_neg (by simp [hstatus])
    refine ⟨l.boundTo fd (h.run (bindPassed dev fd ephemeral)).1.1 (h.run (bindPassed dev fd ephemeral)).1.2,
      (h.run (bindPassed dev fd ephemeral)).2, ?_, hpushes, fun buf addr addrlen attempts =>
        ⟨run_sendto_initialized dev h hstatus buf addr attempts, ?_⟩⟩
    · rw [hreads, shows_bindPassed]
    · have hbinds := binds_ephemeral.mpr hstatus
      have hret : ¬ (Outcome.value 0).ret < 0 := by decide
      have hbind : h.stores (l.bind dev fd ephemeral sizeofSockaddrIn) = [] := by
        rw [bind_eq dev hbinds, UserHost.stores_bind, hstores]
        rfl
      rw [SocketLayer.sendto, if_neg (by simp [hstatus]), if_pos (by simp [hstatus]), UserHost.stores_bind,
        run_bind_eq dev h hbinds, hbind, List.nil_append]
      simp only [if_neg hret]

section Calls

variable {dev} {l l' : SocketLayer} {h h' : UserHost} {fd : Fd} {buf : List (BitVec 8)} {addr : SockaddrIn} {attempts : ℕ}

/-- An address of another family is refused before anything is sent. -/
theorem Prepared.sendsOnce_of_refused (hprepared : Prepared dev l l' h h' fd) {addrlen : BitVec 32}
    (haddrlen : addrlen ≠ sizeofSockaddrIn) : SendsOnce dev l h fd buf addr addrlen attempts := by
  obtain ⟨hrun, hstores⟩ := hprepared.sendto buf addr addrlen attempts
  rw [SendsOnce, hrun, hstores, sendtoBound, if_pos haddrlen]
  exact Or.inl ⟨.EAFNOSUPPORT, rfl, rfl, hprepared.pushes⟩

/-- What a call on an address of the right family does at the first look at a ring with room. -/
theorem Prepared.run_sendto_room (hprepared : Prepared dev l l' h h' fd) (buf : List (BitVec 8)) (addr : SockaddrIn)
    {first : ℕ} (rest : ℕ)
    (hfull : RingFull (fun k => h.shows (readsBefore dev l h fd + k)) first)
    (hfree : (h.shows (readsBefore dev l h fd + first)).buftxFull = false) :
    let p := txUdpPacket (l'.socketFds fd).socket buf addr
    let head := (h.shows (readsBefore dev l h fd + (first + 1))).buftxHead
    let code := l.sendto dev fd buf addr sizeofSockaddrIn (first + (rest + 1))
    (sentb p true ≤ 0 → (h.run code).1.1 = none) ∧
      (¬ sentb p true ≤ 0 → h.run code = ((some (.value (sentb p true)), l'), afterSend h' head p (first + 2)) ∧
        h.stores code = packetRange head p) := by
  obtain ⟨hrun, hstores⟩ := hprepared.sendto buf addr sizeofSockaddrIn (first + (rest + 1))
  have hfull' : RingFull h'.shows first := by
    rw [hprepared.shows]
    exact hfull
  have hfree' : (h'.shows first).buftxFull = false := by
    rw [hprepared.shows]
    exact hfree
  have hhead : (h.shows (readsBefore dev l h fd + (first + 1))).buftxHead = (h'.shows (first + 1)).buftxHead := by
    rw [hprepared.shows]
  dsimp only
  rw [hrun, hstores, hhead, sendtoBound, if_neg (not_not.mpr rfl)]
  simp only [UserHost.run_bind, UserHost.run_pure, UserHost.stores_bind, UserHost.stores_pure, List.append_nil]
  rw [run_sendLoop_room hfull' hfree', stores_sendLoop_room hfull' hfree']
  constructor
  · intro hsize
    rw [if_pos hsize, run_sendLoop_none hsize]
    rfl
  · intro hsize
    rw [if_neg hsize, if_neg hsize, List.append_nil]
    exact ⟨rfl, rfl⟩

/-- The packet of a payload that fits a slot is sent at the first look at a ring with room. -/
theorem Prepared.sent_of_fits (hprepared : Prepared dev l l' h h' fd) (addr : SockaddrIn)
    (hroom : ¬ RingFull (fun k => h.shows (readsBefore dev l h fd + k)) attempts) (hmin : 1 ≤ buf.length)
    (hmax : buf.length ≤ 2008) :
    let code := l.sendto dev fd buf addr sizeofSockaddrIn attempts
    let r := h.run code
    r.1.1 = some (.value buf.length) ∧ ∃ first, RingFull (fun k => h.shows (readsBefore dev l h fd + k)) first ∧
      (h.shows (readsBefore dev l h fd + first)).buftxFull = false ∧
      SentOnce h r.2 (h.stores code) (h.shows (readsBefore dev l h fd + (first + 1))).buftxHead
        (txUdpPacket (r.1.2.socketFds fd).socket buf addr) := by
  obtain ⟨first, rest, rfl, hfull, hfree⟩ := exists_first_of_not_ringFull hroom
  have hheader := length_header (l'.socketFds fd).socket buf addr
  have hsize : sentb (txUdpPacket (l'.socketFds fd).socket buf addr) true = buf.length := sentb_of_fits hmin hmax
  obtain ⟨hrun, hstores⟩ := (hprepared.run_sendto_room buf addr rest hfull hfree).2 (by rw [hsize]; omega)
  dsimp only
  rw [hrun, hstores, hsize]
  refine ⟨rfl, first, hfull, hfree, ?_, ?_, ?_⟩
  · rw [← hprepared.pushes]
    rfl
  · intro k b hb
    exact memory_afterSend hheader hb
  · exact (packetRange_in_slot_iff _ hheader).mpr hmax

/-- A payload that fits a slot is sent once. -/
theorem Prepared.sendsOnce_of_fits (hprepared : Prepared dev l l' h h' fd)
    (hroom : ¬ RingFull (fun k => h.shows (readsBefore dev l h fd + k)) attempts) (hmin : 1 ≤ buf.length)
    (hmax : buf.length ≤ 2008) : SendsOnce dev l h fd buf addr sizeofSockaddrIn attempts :=
  Or.inr (hprepared.sent_of_fits _ hroom hmin hmax)

/-- A payload that was sent once fits a slot. -/
theorem Prepared.fits_of_sendsOnce (hprepared : Prepared dev l l' h h' fd)
    (hroom : ¬ RingFull (fun k => h.shows (readsBefore dev l h fd + k)) attempts)
    (hsends : SendsOnce dev l h fd buf addr sizeofSockaddrIn attempts) : 1 ≤ buf.length ∧ buf.length ≤ 2008 := by
  obtain ⟨first, rest, rfl, hfull, hfree⟩ := exists_first_of_not_ringFull hroom
  have hheader := length_header (l'.socketFds fd).socket buf addr
  obtain ⟨hnone, hsome⟩ := hprepared.run_sendto_room buf addr rest hfull hfree
  rw [SendsOnce] at hsends
  by_cases hsize : sentb (txUdpPacket (l'.socketFds fd).socket buf addr) true ≤ 0
  · -- the packet is sent again and again, and nothing is returned
    rw [hnone hsize] at hsends
    simp at hsends
  · obtain ⟨hrun, hstores⟩ := hsome hsize
    rw [hrun, hstores] at hsends
    rcases hsends with ⟨e, hfail, -⟩ | ⟨-, first', hfull', hfree', hsent⟩
    · simp [Outcome.value, Outcome.fail] at hfail
    · have hfirst : first' = first := first_unique hfull' hfree' hfull hfree
      rw [hfirst] at hsent
      refine ⟨Nat.pos_of_ne_zero fun hzero => hsize ?_, (packetRange_in_slot_iff _ hheader).mp hsent.stores⟩
      have hpayload : (txUdpPacket (l'.socketFds fd).socket buf addr).payload.length = 0 := hzero
      rw [sentb, if_pos rfl, hpayload]
      exact Int.le_refl 0

end Calls

/-- While the ring shows room in one of the attempts, `sendto` on an assigned descriptor fails with nothing sent, or sends
its packet once, exactly when it refuses the address or the payload is not empty and fits a slot. -/
theorem sendsOnce_iff (l : SocketLayer) (h : UserHost) {fd : Fd} (hfd : (l.socketFds fd).status ≠ .notAssigned)
    (buf : List (BitVec 8)) (addr : SockaddrIn) (addrlen : BitVec 32) {attempts : ℕ}
    (hroom : ¬ RingFull (fun k => h.shows (readsBefore dev l h fd + k)) attempts) :
    SendsOnce dev l h fd buf addr addrlen attempts ↔
      addrlen ≠ sizeofSockaddrIn ∨ 1 ≤ buf.length ∧ buf.length ≤ 2008 := by
  obtain ⟨l', h', hprepared⟩ := exists_prepared dev l h hfd
  by_cases haddrlen : addrlen = sizeofSockaddrIn
  · subst haddrlen
    rw [or_iff_right (not_not.mpr rfl)]
    constructor
    · intro hsends
      exact hprepared.fits_of_sendsOnce hroom hsends
    · rintro ⟨hmin, hmax⟩
      exact hprepared.sendsOnce_of_fits hroom hmin hmax
  · exact iff_of_true (hprepared.sendsOnce_of_refused haddrlen) (Or.inl haddrlen)

/-- Three bytes are sent once. -/
theorem sendsOnce_three : SendsOnce SocketRun.localPorts boundSocket idleHost 3 [1, 2, 3] (inetAddr 0xC0A80102 5678)
    sizeofSockaddrIn 1 :=
  (sendsOnce_iff SocketRun.localPorts boundSocket idleHost (by decide) [1, 2, 3] _ _
    (fun hfull => absurd (hfull 0 (by decide)) (by decide))).mpr (Or.inr (by decide))

/-- An empty payload is sent in every attempt, and the call never returns. -/
theorem not_sendsOnce : ¬ ∀ (dev : UdpIpDevice) (l : SocketLayer) (h : UserHost) (fd : Fd),
    (l.socketFds fd).status ≠ .notAssigned → ∀ (buf : List (BitVec 8)) (addr : SockaddrIn) (addrlen : BitVec 32)
      (attempts : ℕ), ¬ RingFull (fun k => h.shows (readsBefore dev l h fd + k)) attempts →
        SendsOnce dev l h fd buf addr addrlen attempts := by
  intro hall
  have hroom : ¬ RingFull (fun k => idleHost.shows (readsBefore SocketRun.localPorts boundSocket idleHost 3 + k)) 1 :=
    fun hfull => absurd (hfull 0 (by decide)) (by decide)
  have hsends := hall SocketRun.localPorts boundSocket idleHost 3 (by decide) [] (inetAddr 0xC0A80102 5678)
    sizeofSockaddrIn 1 hroom
  have hfd : (boundSocket.socketFds 3).status ≠ .notAssigned := by decide
  obtain ⟨l', h', hprepared⟩ := exists_prepared SocketRun.localPorts boundSocket idleHost hfd
  exact absurd (hprepared.fits_of_sendsOnce hroom hsends).1 (by decide)

end SocketLayer

end UdpIpCore
