import UdpIpCore.Userspace.SocketMirror

/-!
# `connect` and `send` against `sendto`

Both paths end in the loop of `sendto`. The peer address survives its conversions, the
peer port does not: `send` passes it through `htonl` and keeps the lower half, so its
packets carry destination port 0.
-/

namespace UdpIpCore

namespace SocketLayer

open Udriver

variable (dev : UdpIpDevice)

/-- The address of a host and a port. -/
def inetAddr (a : BitVec 32) (q : BitVec 16) : SockaddrIn := ⟨BitVec.ofInt 16 afInet, htons q, htonl a⟩

/-- The layer without the peer of a descriptor. -/
def forgetPeer (l : SocketLayer) (fd : Fd) : SocketLayer :=
  l.setSocket fd { (l.socketFds fd).socket with destIp := 0, destPort := 0 }

/-- `connect` followed by `send`. -/
def connectSend (l : SocketLayer) (fd : Fd) (addr : SockaddrIn) (buf : List (BitVec 8)) (attempts : ℕ) :
    UserCode (Option Outcome × SocketLayer) :=
  (l.connect fd addr sizeofSockaddrIn).2.send dev fd buf attempts

/-- Two calls return the same and leave the same registers, the same shared memory with its slots, and
the same descriptors apart from the peer. -/
def Alike (fd : Fd) (r r' : (Option Outcome × SocketLayer) × UserHost) : Prop :=
  r.1.1 = r'.1.1 ∧ r.1.2.forgetPeer fd = r'.1.2.forgetPeer fd ∧ r.2 = r'.2

/-- `connect` and `send` do what `sendto` does. -/
def SendsAlike (l : SocketLayer) (h : UserHost) (fd : Fd) (addr : SockaddrIn) (buf : List (BitVec 8))
    (attempts : ℕ) : Prop :=
  Alike fd (h.run (l.connectSend dev fd addr buf attempts))
    (h.run (l.sendto dev fd buf addr sizeofSockaddrIn attempts))

/-- The register reads before the first attempt: an unbound descriptor is bound first. -/
def readsBefore (l : SocketLayer) (h : UserHost) (fd : Fd) : ℕ :=
  if (l.socketFds fd).status = .bound then 0
  else if dev.InRange (chosenPort h.regs fd ephemeral) then 3 else 2

/-- Every attempt finds the TX ring full. -/
def RingFull (shows : ℕ → StatusInputs) (attempts : ℕ) : Prop := ∀ k < attempts, (shows k).buftxFull = true

section Loop

variable {p p' : UdpPacket} {h h' : UserHost}

/-- A full ring counts as an attempt that sent nothing. -/
theorem sentb_false (p : UdpPacket) : sentb p false ≤ 0 := by simp [sentb]

/-- As long as the ring is full nothing is sent. -/
theorem run_sendLoop_full {attempts : ℕ} (hfull : RingFull h.shows attempts) :
    h.run (sendLoop p attempts) = (none, { h with shows := fun k => h.shows (k + attempts) }) := by
  induction attempts generalizing h with
  | zero => rfl
  | succ attempts ih =>
    have hfirst : (h.shows 0).buftxFull = true := hfull 0 (Nat.succ_pos _)
    have hrest : RingFull h.afterRead.shows attempts := fun k hk => hfull (k + 1) (Nat.succ_lt_succ hk)
    rw [sendLoop, UserHost.run_bind, UserHost.run_udriverSend, if_pos hfirst]
    simp only [if_pos (sentb_false p)]
    rw [ih hrest]
    simp [UserHost.afterRead, Nat.add_assoc, Nat.add_comm, Nat.add_left_comm]

/-- A slot is written header first, and its payload does not reach the header. -/
theorem header_of_slotWritten {head : BitVec 5} (hp : p.header.length = packetHdrSizeBytes)
    (hp' : p'.header.length = packetHdrSizeBytes) (heq : h.slotWritten head p = h'.slotWritten head p') :
    p.header = p'.header := by
  refine List.ext_getElem (by rw [hp, hp']) fun k hk hk' => ?_
  have hbyte := congrFun heq (bufTxOffsetBytes + head.toNat * bufferElemMaxSize + k)
  have hbefore : bufTxOffsetBytes + head.toNat * bufferElemMaxSize + k <
      bufTxOffsetBytes + head.toNat * bufferElemMaxSize + packetHdrSizeBytes := by omega
  rw [UserHost.slotWritten, UserHost.slotWritten, UserHost.writeBytes_of_lt hbefore,
    UserHost.writeBytes_of_lt hbefore, UserHost.writeBytes_of_getElem? _ _ (List.getElem?_eq_getElem hk),
    UserHost.writeBytes_of_getElem? _ _ (List.getElem?_eq_getElem hk')] at hbyte
  exact hbyte

/-- Packets with different headers leave different slots once one attempt finds room. -/
theorem memory_ne_of_header_ne (hp : p.header.length = packetHdrSizeBytes)
    (hp' : p'.header.length = packetHdrSizeBytes) (hne : p.header ≠ p'.header) (hpayload : p.payload = p'.payload)
    {attempts : ℕ} (hshows : h.shows = h'.shows) (hroom : ¬ RingFull h.shows attempts) :
    (h.run (sendLoop p attempts)).2.memory ≠ (h'.run (sendLoop p' attempts)).2.memory := by
  induction attempts generalizing h h' with
  | zero => exact absurd (fun k hk => absurd hk (Nat.not_lt_zero k)) hroom
  | succ attempts ih =>
    rw [sendLoop, sendLoop, UserHost.run_bind, UserHost.run_bind, UserHost.run_udriverSend,
      UserHost.run_udriverSend, ← hshows]
    by_cases hfirst : (h.shows 0).buftxFull = true
    · simp only [if_pos hfirst, if_pos (sentb_false _)]
      refine ih (congrArg (fun shows k => shows (k + 1)) hshows) fun hrest => hroom fun k hk => ?_
      cases k with
      | zero => exact hfirst
      | succ k => exact hrest k (Nat.lt_of_succ_lt_succ hk)
    · have hslot : h.slotWritten (h.shows 1).buftxHead p ≠ h'.slotWritten (h.shows 1).buftxHead p' :=
        fun heq => hne (header_of_slotWritten hp hp' heq)
      have hsent : sentb p' true = sentb p true := by rw [sentb, sentb, hpayload]
      simp only [if_neg hfirst, hsent]
      by_cases hagain : sentb p true ≤ 0
      · simp only [if_pos hagain]
        -- a length that is not positive is sent again, to the end of the attempts
        by_cases hrest : RingFull (fun k => h.shows (k + 2)) attempts
        · rw [run_sendLoop_full hrest, run_sendLoop_full hrest]
          exact hslot
        · exact ih rfl hrest
      · simp only [if_neg hagain]
        exact hslot

end Loop

/-- A header word can be read back. -/
theorem wordBytes_injective : Function.Injective wordBytes := by
  intro w w' heq
  apply BitVec.eq_of_getLsbD_eq
  intro i hi
  have hbyte : w.extractLsb' (8 * (i / 8)) 8 = w'.extractLsb' (8 * (i / 8)) 8 := by
    have hget := congrArg (fun l : List (BitVec 8) => l[i / 8]?) heq
    have hlt : i / 8 < 8 := by omega
    simpa [wordBytes, hlt] using hget
  have hbit := congrArg (fun b : BitVec 8 => b.getLsbD (i % 8)) hbyte
  have hlow : i % 8 < 8 := by omega
  simp only [BitVec.getLsbD_extractLsb', hlow, decide_true, Bool.true_and] at hbit
  rwa [Nat.div_add_mod] at hbit

/-- A header has five words. -/
theorem length_header (socket : UdriverSocket) (buf : List (BitVec 8)) (addr : SockaddrIn) :
    (txUdpPacket socket buf addr).header.length = packetHdrSizeBytes := by
  simp [txUdpPacket, wordBytes]

/-- The packets of the two paths differ exactly in a destination port other than 0. -/
theorem txUdpPacket_eq_iff {socket socket' : UdriverSocket} (buf : List (BitVec 8)) (a : BitVec 32)
    (q : BitVec 16) (hip : socket.srcIp = socket'.srcIp) (hport : socket.srcPort = socket'.srcPort) :
    (txUdpPacket socket buf ⟨BitVec.ofInt 16 afInet, 0, htonl a⟩).header =
      (txUdpPacket socket' buf (inetAddr a q)).header ↔ q = 0 := by
  simp only [txUdpPacket, inetAddr, hip, hport, htons_htons, List.append_cancel_left_eq]
  constructor
  · intro heq
    have hword := congrArg BitVec.toNat (wordBytes_injective heq)
    rw [BitVec.toNat_setWidth_of_le (by decide), BitVec.toNat_setWidth_of_le (by decide)] at hword
    exact BitVec.eq_of_toNat_eq hword.symm
  · rintro rfl
    rfl

/-- Once bound, the two paths do the same exactly if the port is 0 or nothing is sent at all. -/
theorem alike_sendtoBound_iff {l l' : SocketLayer} {fd : Fd} (h : UserHost) (hpeer : l.forgetPeer fd = l'.forgetPeer fd)
    (hip : (l.socketFds fd).socket.srcIp = (l'.socketFds fd).socket.srcIp)
    (hport : (l.socketFds fd).socket.srcPort = (l'.socketFds fd).socket.srcPort)
    (buf : List (BitVec 8)) (a : BitVec 32) (q : BitVec 16) (attempts : ℕ) :
    Alike fd (h.run (l.sendtoBound fd buf ⟨BitVec.ofInt 16 afInet, 0, htonl a⟩ sizeofSockaddrIn attempts))
        (h.run (l'.sendtoBound fd buf (inetAddr a q) sizeofSockaddrIn attempts)) ↔
      q = 0 ∨ RingFull h.shows attempts := by
  have hheader := txUdpPacket_eq_iff buf a q hip hport
  rw [sendtoBound, sendtoBound, if_neg (not_not.mpr rfl), if_neg (not_not.mpr rfl)]
  simp only [UserHost.run_bind, UserHost.run_pure]
  constructor
  · rintro ⟨-, -, hhost⟩
    by_contra hnot
    obtain ⟨hq, hroom⟩ := not_or.mp hnot
    exact memory_ne_of_header_ne (length_header _ _ _) (length_header _ _ _) (fun heq => hq (hheader.mp heq)) rfl rfl hroom
      (congrArg UserHost.memory hhost)
  · rintro (rfl | hfull)
    · have hpacket : txUdpPacket (l.socketFds fd).socket buf ⟨BitVec.ofInt 16 afInet, 0, htonl a⟩ =
          txUdpPacket (l'.socketFds fd).socket buf (inetAddr a 0) := by
        have heq := hheader.mpr rfl
        simpa only [txUdpPacket, UdpPacket.mk.injEq, and_true] using heq
      rw [hpacket]
      exact ⟨rfl, hpeer, rfl⟩
    · rw [run_sendLoop_full hfull, run_sendLoop_full hfull]
      exact ⟨rfl, hpeer, rfl⟩

/-- The reads of the implicit bind. -/
theorem shows_bindPassed (h : UserHost) (fd : Fd) : (h.run (bindPassed dev fd ephemeral)).2.shows =
    fun k => h.shows ((if dev.InRange (chosenPort h.regs fd ephemeral) then 3 else 2) + k) := by
  have hip : h.run (bindIp ephemeral) = (h.regs.read (h.shows 0) RegAddr.ipLoc, h.afterRead) := by
    rw [bindIp, if_pos (by decide)]
    rfl
  have hport : h.afterRead.run (bindPort fd ephemeral) =
      (chosenPort h.regs fd ephemeral, h.afterRead.afterRead) := by
    rw [bindPort, chosenPort, if_pos (by decide), if_pos (by decide)]
    rfl
  simp only [bindPassed, UserHost.run_bind, UserHost.run_pure, hip, hport, shows_run_setSocketStatus]
  funext k
  by_cases hrange : dev.InRange (chosenPort h.regs fd ephemeral)
  · simp only [if_pos hrange, UserHost.afterRead]
    congr 1
    omega
  · simp only [if_neg hrange, UserHost.afterRead]
    congr 1
    omega

/-- An unbound descriptor is bound before the loop. -/
theorem run_sendto_initialized {l : SocketLayer} (h : UserHost) {fd : Fd} {addrlen : BitVec 32}
    (hstatus : (l.socketFds fd).status = .initialized) (buf : List (BitVec 8)) (addr : SockaddrIn) (attempts : ℕ) :
    h.run (l.sendto dev fd buf addr addrlen attempts) =
      (h.run (bindPassed dev fd ephemeral)).2.run
        ((l.boundTo fd (h.run (bindPassed dev fd ephemeral)).1.1 (h.run (bindPassed dev fd ephemeral)).1.2).sendtoBound
          fd buf addr addrlen attempts) := by
  have hret : ¬ (Outcome.value 0).ret < 0 := by decide
  rw [sendto, if_neg (by simp [hstatus]), if_pos (by simp [hstatus]), UserHost.run_bind,
    run_bind_eq dev h (binds_ephemeral.mpr hstatus)]
  simp only [if_neg hret]

/-- A new peer is forgotten. -/
theorem forgetPeer_setSocket (l : SocketLayer) (fd : Fd) (peerIp : BitVec 32) (peerPort : BitVec 16) :
    (l.setSocket fd { (l.socketFds fd).socket with destIp := peerIp, destPort := peerPort }).forgetPeer fd =
      l.forgetPeer fd := by
  simp only [forgetPeer, setSocket, setFd, SocketLayer.mk.injEq, and_true]
  funext other
  by_cases heq : other = fd <;> simp [heq]

/-- Binding a descriptor leaves its peer alone. -/
theorem forgetPeer_boundTo (l : SocketLayer) (fd : Fd) (peerIp : BitVec 32) (peerPort : BitVec 16)
    (ip : BitVec 32) (port : BitVec 16) :
    ((l.setSocket fd { (l.socketFds fd).socket with destIp := peerIp, destPort := peerPort }).boundTo fd ip port).forgetPeer fd =
      (l.boundTo fd ip port).forgetPeer fd := by
  simp only [forgetPeer, boundTo, setSocket, setFd, SocketLayer.mk.injEq, and_true]
  funext other
  by_cases heq : other = fd <;> simp [heq]

/-- `connect` and `send` do what `sendto` does exactly on an unassigned descriptor, to port 0, or as
long as the TX ring stays full. -/
theorem sendsAlike_iff (l : SocketLayer) (h : UserHost) (fd : Fd) (a : BitVec 32) (q : BitVec 16)
    (buf : List (BitVec 8)) (attempts : ℕ) (ha : a ≠ 0) :
    SendsAlike dev l h fd (inetAddr a q) buf attempts ↔
      (l.socketFds fd).status = .notAssigned ∨ q = 0 ∨
        RingFull (fun k => h.shows (readsBefore dev l h fd + k)) attempts := by
  have hfamily : ((inetAddr a q).sinFamily.toNat : ℤ) = afInet := by
    simp [inetAddr, afInet]
  have hconnect : (l.connect fd (inetAddr a q) sizeofSockaddrIn).2 =
      if (l.socketFds fd).status = .notAssigned then l
      else l.setSocket fd { (l.socketFds fd).socket with destIp := a, destPort := q } := by
    rw [connect, if_neg (by simp [hfamily])]
    split
    · rfl
    · simp [inetAddr, htonl_htonl, htons_htons]
  rw [SendsAlike, connectSend, hconnect]
  by_cases hassigned : (l.socketFds fd).status = .notAssigned
  · refine iff_of_true ?_ (Or.inl hassigned)
    rw [if_pos hassigned, send, if_pos hassigned, sendto, if_pos hassigned]
    exact ⟨rfl, rfl, rfl⟩
  rw [if_neg hassigned, or_iff_right hassigned]
  let l' := l.setSocket fd { (l.socketFds fd).socket with destIp := a, destPort := q }
  have hstatus' : (l'.socketFds fd).status = (l.socketFds fd).status := by simp [l', setSocket, setFd]
  have hdest : (l'.socketFds fd).socket.destIp = a := by simp [l', setSocket, setFd]
  have hpeer : peerAddr (l'.socketFds fd).socket = ⟨BitVec.ofInt 16 afInet, 0, htonl a⟩ := by
    rw [peerAddr, hdest, setWidth_htonl_port]
  have hsend : l'.send dev fd buf attempts =
      l'.sendto dev fd buf ⟨BitVec.ofInt 16 afInet, 0, htonl a⟩ sizeofSockaddrIn attempts := by
    rw [send, if_neg (hstatus' ▸ hassigned), if_neg (hdest ▸ ha), hpeer]
  rw [show l.setSocket fd { (l.socketFds fd).socket with destIp := a, destPort := q } = l' from rfl, hsend]
  cases hstatus : (l.socketFds fd).status with
  | notAssigned => exact absurd hstatus hassigned
  | bound =>
    have hreads : readsBefore dev l h fd = 0 := if_pos hstatus
    have hdirect (layer : SocketLayer) (addr : SockaddrIn) (hlayer : (layer.socketFds fd).status = .bound) :
        layer.sendto dev fd buf addr sizeofSockaddrIn attempts =
          layer.sendtoBound fd buf addr sizeofSockaddrIn attempts := by
      rw [sendto, if_neg (by simp [hlayer]), if_neg (by simp [hlayer])]
    rw [hdirect l' _ (hstatus'.trans hstatus), hdirect l _ hstatus, hreads]
    simp only [Nat.zero_add]
    refine alike_sendtoBound_iff h (forgetPeer_setSocket l fd a q) ?_ ?_ buf a q attempts
    all_goals simp [setSocket, setFd]
  | initialized =>
    rw [run_sendto_initialized dev h (hstatus'.trans hstatus), run_sendto_initialized dev h hstatus]
    have hreads : readsBefore dev l h fd = if dev.InRange (chosenPort h.regs fd ephemeral) then 3 else 2 :=
      if_neg (by simp [hstatus])
    rw [hreads, ← shows_bindPassed]
    refine alike_sendtoBound_iff _ (forgetPeer_boundTo l fd a q _ _) ?_ ?_ buf a q attempts
    all_goals simp [boundTo, setFd]

/-- A descriptor bound to port 7400. -/
def boundSocket : SocketLayer := fdsInit.setFd 3 ⟨-1, .bound, ⟨0, 0xC0A80180, 7400, 0, 0⟩⟩

/-- An idle device. -/
def idleHost : UserHost := ⟨.reset, fun _ => 0, 0, fun _ => SocketRun.idleStatus⟩

/-- A bound descriptor and a peer with port 0. -/
theorem sendsAlike_port_zero :
    SendsAlike SocketRun.localPorts boundSocket idleHost 3 (inetAddr 0xC0A80102 0) [1, 2, 3] 1 :=
  (sendsAlike_iff SocketRun.localPorts boundSocket idleHost 3 0xC0A80102 0 [1, 2, 3] 1 (by decide)).mpr
    (Or.inr (Or.inl rfl))

/-- To port 5678, `send` puts another packet into the slot than `sendto`. -/
theorem not_sendsAlike : ¬ ∀ (dev : UdpIpDevice) (l : SocketLayer) (h : UserHost) (fd : Fd) (a : BitVec 32)
    (q : BitVec 16) (buf : List (BitVec 8)) (attempts : ℕ), a ≠ 0 →
    SendsAlike dev l h fd (inetAddr a q) buf attempts := by
  intro hall
  have halike := hall SocketRun.localPorts boundSocket idleHost 3 0xC0A80102 5678 [1, 2, 3] 1 (by decide)
  have hbyte := congrFun (congrArg UserHost.memory halike.2.2) (bufTxOffsetBytes + 32)
  exact absurd hbyte (by decide)

end SocketLayer

end UdpIpCore
