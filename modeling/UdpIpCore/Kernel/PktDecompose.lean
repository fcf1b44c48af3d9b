import UdpIpCore.InternetChecksum
import UdpIpCore.Kernel.PktCompose

/-!
# Decomposing packets

`udp_core_pkt_decompose` builds a socket buffer for a packet that came from the device: the
headers from a template that all packets share, the payload, and a checksum of the IP header.
Each packet overwrites every field of the template that another one has changed, so composing
the buffer gives the packet back whatever came before.
-/

namespace UdpIpCore

namespace Kernel

open ByteOrder

/-- `struct udp_packet` without its payload. -/
structure UdpPacketHdr where
  destMac : Vector (BitVec 8) 6
  srcMac : Vector (BitVec 8) 6
  etherType : BitVec 16
  ihl : BitVec 4
  version : BitVec 4
  tos : BitVec 8
  totalLen : BitVec 16
  ident : BitVec 16
  flags : BitVec 4
  fragOffset : BitVec 12
  ttl : BitVec 8
  protocol : BitVec 8
  checksum : BitVec 16
  sourceIp : BitVec 32
  destIp : BitVec 32
  sourcePort : BitVec 16
  destPort : BitVec 16
  payloadLen : BitVec 16
  udpChecksum : BitVec 16

namespace UdpPacketHdr

/-- The packed layout; of two bit-fields in one unit the first one takes the lower bits. -/
def bytes (h : UdpPacketHdr) : List (BitVec 8) :=
  h.destMac.toList ++ h.srcMac.toList ++ leBytes 2 h.etherType ++ [h.version ++ h.ihl, h.tos] ++ leBytes 2 h.totalLen ++
    leBytes 2 h.ident ++ leBytes 2 (h.fragOffset ++ h.flags) ++ [h.ttl, h.protocol] ++ leBytes 2 h.checksum ++
    leBytes 4 h.sourceIp ++ leBytes 4 h.destIp ++ leBytes 2 h.sourcePort ++ leBytes 2 h.destPort ++
    leBytes 2 h.payloadLen ++ leBytes 2 h.udpChecksum

end UdpPacketHdr

/-- `premade_udp_packet`. -/
def premadeUdpPacket : UdpPacketHdr where
  destMac := #v[0x02, 0x00, 0x00, 0x00, 0x00, 0x00]
  srcMac := #v[0x02, 0x00, 0x00, 0x00, 0x00, 0x01]
  etherType := swap16 ethPIp
  ihl := 5
  version := 4
  tos := 0
  totalLen := 0
  ident := 1
  flags := 0
  fragOffset := 0
  ttl := 64
  protocol := ipprotoUdp
  checksum := 0
  sourceIp := 0
  destIp := 0
  sourcePort := 0
  destPort := 0
  payloadLen := 0
  udpChecksum := 0

/-- The words of an IP header of `ihl` double words. -/
def ipWords (memory : ℕ → BitVec 8) (iph ihl : ℕ) : List (BitVec 16) :=
  (List.range (2 * ihl)).map fun i => load16 memory (iph + 2 * i)

/-- `ip_fast_csum`. -/
def ipFastCsum (memory : ℕ → BitVec 8) (iph ihl : ℕ) : BitVec 16 := InternetChecksum.checksum (ipWords memory iph ihl)

namespace SkBuff

/-- `ip_hdr(skb)->ihl`. -/
def ipIhl (skb : SkBuff) : ℕ := ((skb.memory skb.networkHeader).setWidth 4).toNat

/-- `ip_hdr(skb)->tot_len`. -/
def ipTotLen (skb : SkBuff) : BitVec 16 := load16 skb.memory (skb.networkHeader + 2)

/-- The store to `ip_hdr(skb)->check`. -/
def setIpCheck (skb : SkBuff) (check : BitVec 16) : SkBuff :=
  { skb with memory := UserHost.writeBytes skb.memory (skb.networkHeader + 10) (leBytes 2 check) }

end SkBuff

/-- The template once the fields of a packet were stored. -/
def UdpPacketHdr.populate (h : UdpPacketHdr) (raw : RawPacket (ℕ → BitVec 8)) : UdpPacketHdr :=
  { h with
    totalLen := swap16 ((BitVec.ofNat 64 (ipv4Hlen + udpHlen) + raw.payloadSizeBytes).setWidth 16)
    sourceIp := swap32 (raw.sourceIp.setWidth 32)
    destIp := swap32 (raw.destIp.setWidth 32)
    sourcePort := swap16 (raw.sourcePort.setWidth 16)
    destPort := swap16 (raw.destPort.setWidth 16)
    payloadLen := swap16 ((raw.payloadSizeBytes + BitVec.ofNat 64 udpHlen).setWidth 16) }

/-- The payload that is copied. -/
def RawPacket.payloadBytes (raw : RawPacket (ℕ → BitVec 8)) : List (BitVec 8) :=
  (List.range raw.payloadSizeBytes.toNat).map raw.payload

/-- The buffer with its headers in place, before the checksum is computed. -/
def framed (skb : SkBuff) (bytes payload : List (BitVec 8)) : SkBuff :=
  let skb := (skb.putData bytes).putData payload
  let skb := (skb.resetMacHeader.pull ethHlen).resetNetworkHeader.setTransportHeader ipv4Hlen
  { skb with protocol := swap16 ethPIp, checksumUnnecessary := true }

/-- `udp_core_pkt_decompose_no_strip`: the buffer and the template after it. -/
def decomposeNoStrip (skb : SkBuff) (raw : RawPacket (ℕ → BitVec 8)) (udpPacket : UdpPacketHdr) :
    SkBuff × UdpPacketHdr :=
  let populated := udpPacket.populate raw
  let skb := framed skb populated.bytes raw.payloadBytes
  (skb.setIpCheck (ipFastCsum skb.memory skb.networkHeader skb.ipIhl), populated)

/-- `premade_udp_packet` after some packets were decomposed. -/
def premadeAfter (earlier : List (SkBuff × RawPacket (ℕ → BitVec 8))) : UdpPacketHdr :=
  earlier.foldl (fun h e => (decomposeNoStrip e.1 e.2 h).2) premadeUdpPacket

/-- `udp_core_pkt_decompose`, after some other packets. -/
def decompose (earlier : List (SkBuff × RawPacket (ℕ → BitVec 8))) (skb : SkBuff) (raw : RawPacket (ℕ → BitVec 8)) :
    SkBuff := (decomposeNoStrip skb raw (premadeAfter earlier)).1

/-- A packet with addresses and ports of their sizes, a payload that fits a frame, and a destination the driver serves. -/
structure RawPacket.Sound (raw : RawPacket (ℕ → BitVec 8)) : Prop where
  sourceIp : raw.sourceIp.toNat < 2 ^ 32
  destIp : raw.destIp.toNat < 2 ^ 32
  sourcePort : raw.sourcePort.toNat < 2 ^ 16
  destPort : raw.destPort.toNat < 2 ^ 16
  size : raw.payloadSizeBytes.toNat ≤ maxPayloadSize
  served : raw.destIp ≠ 0xFFFFFFFF ∧ raw.destIp ≠ 0xE00000FB

/-- The buffer is a valid packet, and composing it gives the raw packet back. -/
structure Undone (raw : RawPacket (ℕ → BitVec 8)) (skb : SkBuff) : Prop where
  version : skb.memory skb.networkHeader = 0x45
  totalLength : (swap16 skb.ipTotLen).toNat = 28 + raw.payloadSizeBytes.toNat
  verifies : ipFastCsum skb.memory skb.networkHeader skb.ipIhl = 0
  udpLength : (swap16 skb.udpLen).toNat = 8 + raw.payloadSizeBytes.toNat
  composed : ∃ p, compose skb = some p ∧ p.payloadSizeBytes = raw.payloadSizeBytes ∧ p.sourceIp = raw.sourceIp ∧
    p.destIp = raw.destIp ∧ p.sourcePort = raw.sourcePort ∧ p.destPort = raw.destPort ∧
    skb.Within p.payload raw.payloadSizeBytes.toNat ∧
    ∀ i < raw.payloadSizeBytes.toNat, skb.memory (p.payload + i) = raw.payload i

section Template

variable (raw : RawPacket (ℕ → BitVec 8)) (earlier : List (SkBuff × RawPacket (ℕ → BitVec 8)))

/-- Filling in the fields of a packet leaves nothing of the packets before. -/
theorem populate_premadeAfter : (premadeAfter earlier).populate raw = premadeUdpPacket.populate raw := by
  induction earlier using List.reverseRecOn with
  | nil => rfl
  | append_singleton earlier e ih =>
    have hlast : premadeAfter (earlier ++ [e]) = (premadeAfter earlier).populate e.2 := by
      rw [premadeAfter, List.foldl_append]
      rfl
    have htwice (h : UdpPacketHdr) : (h.populate e.2).populate raw = h.populate raw := rfl
    rw [hlast, htwice, ih]

/-- The headers have the length of the frame. -/
theorem length_bytes (h : UdpPacketHdr) : h.bytes.length = pktHlen := by
  simp [UdpPacketHdr.bytes, pktHlen, ethHlen, ipv4Hlen, udpHlen]

end Template

section Built

variable {memory : ℕ → BitVec 8} {headroom : ℕ} {raw : RawPacket (ℕ → BitVec 8)}

/-- The headers of a packet. -/
def headerBytes (raw : RawPacket (ℕ → BitVec 8)) : List (BitVec 8) := (premadeUdpPacket.populate raw).bytes

/-- The buffer before the checksum is stored. -/
def unchecked (memory : ℕ → BitVec 8) (headroom : ℕ) (raw : RawPacket (ℕ → BitVec 8)) : SkBuff :=
  framed (SkBuff.netdevAlloc memory headroom) (headerBytes raw) raw.payloadBytes

/-- The buffer with a checksum. -/
def checked (memory : ℕ → BitVec 8) (headroom : ℕ) (raw : RawPacket (ℕ → BitVec 8)) (check : BitVec 16) : SkBuff :=
  (unchecked memory headroom raw).setIpCheck check

/-- The headers of a packet, byte by byte. -/
theorem headerBytes_eq (raw : RawPacket (ℕ → BitVec 8)) :
    let h := premadeUdpPacket.populate raw
    headerBytes raw = [0x02, 0x00, 0x00, 0x00, 0x00, 0x00, 0x02, 0x00, 0x00, 0x00, 0x00, 0x01, 0x08, 0x00, 0x45, 0x00] ++
      leBytes 2 h.totalLen ++ [0x01, 0x00, 0x00, 0x00, 0x40, 0x11, 0x00, 0x00] ++ leBytes 4 h.sourceIp ++
      leBytes 4 h.destIp ++ leBytes 2 h.sourcePort ++ leBytes 2 h.destPort ++ leBytes 2 h.payloadLen ++ [0x00, 0x00] := by
  have hmac : (premadeUdpPacket.populate raw).destMac.toList ++ (premadeUdpPacket.populate raw).srcMac.toList =
      [0x02, 0x00, 0x00, 0x00, 0x00, 0x00, 0x02, 0x00, 0x00, 0x00, 0x00, 0x01] := rfl
  have hetherType : leBytes 2 premadeUdpPacket.etherType = [0x08, 0x00] := by decide
  have hversion : [premadeUdpPacket.version ++ premadeUdpPacket.ihl, premadeUdpPacket.tos] = [0x45, 0x00] := by decide
  have hident : leBytes 2 premadeUdpPacket.ident = [0x01, 0x00] := by decide
  have hflags : leBytes 2 (premadeUdpPacket.fragOffset ++ premadeUdpPacket.flags) = [0x00, 0x00] := by decide
  have httl : [premadeUdpPacket.ttl, premadeUdpPacket.protocol] = [0x40, 0x11] := by decide
  have hchecksum : leBytes 2 premadeUdpPacket.checksum = [0x00, 0x00] := by decide
  have hudp : leBytes 2 premadeUdpPacket.udpChecksum = [0x00, 0x00] := by decide
  rw [headerBytes, UdpPacketHdr.bytes, hmac]
  simp only [UdpPacketHdr.populate, hetherType, hversion, hident, hflags, httl, hchecksum, hudp, List.append_assoc,
    List.cons_append, List.nil_append]

/-- The header is one of IPv4 without options. -/
theorem header_version (raw : RawPacket (ℕ → BitVec 8)) : (headerBytes raw)[14]? = some 0x45 := by
  rw [headerBytes_eq]
  rfl

/-- The checksum field is zero. -/
theorem header_check (raw : RawPacket (ℕ → BitVec 8)) :
    (headerBytes raw)[24]? = some 0 ∧ (headerBytes raw)[25]? = some 0 := by
  rw [headerBytes_eq]
  exact ⟨rfl, rfl⟩

/-- The payload lies behind the headers. -/
theorem memory_framed (bytes payload : List (BitVec 8)) :
    (framed (SkBuff.netdevAlloc memory headroom) bytes payload).memory =
      UserHost.writeBytes (UserHost.writeBytes memory headroom bytes) (headroom + bytes.length) payload := by
  change UserHost.writeBytes (UserHost.writeBytes memory (headroom + 0) bytes) (headroom + (0 + bytes.length)) payload = _
  rw [Nat.zero_add, Nat.add_zero]

/-- The length of the headers is that of the frame. -/
theorem length_headerBytes (raw : RawPacket (ℕ → BitVec 8)) : (headerBytes raw).length = pktHlen :=
  length_bytes (premadeUdpPacket.populate raw)

/-- The buffer in memory. -/
theorem memory_unchecked : (unchecked memory headroom raw).memory =
    UserHost.writeBytes (UserHost.writeBytes memory headroom (headerBytes raw)) (headroom + pktHlen) raw.payloadBytes := by
  rw [unchecked, memory_framed, length_headerBytes]

/-- A byte of the headers. -/
theorem unchecked_header {k : ℕ} {b : BitVec 8} (hb : (headerBytes raw)[k]? = some b) :
    (unchecked memory headroom raw).memory (headroom + k) = b := by
  have hk := (List.getElem?_eq_some_iff.mp hb).1
  rw [length_headerBytes] at hk
  rw [memory_unchecked, UserHost.writeBytes_of_lt (by omega), UserHost.writeBytes_of_getElem? _ _ hb]

/-- A byte of the payload. -/
theorem unchecked_payload {i : ℕ} (hi : i < raw.payloadSizeBytes.toNat) :
    (unchecked memory headroom raw).memory (headroom + pktHlen + i) = raw.payload i := by
  have hb : raw.payloadBytes[i]? = some (raw.payload i) := by
    rw [RawPacket.payloadBytes, List.getElem?_map, List.getElem?_range hi, Option.map_some]
  rw [memory_unchecked, UserHost.writeBytes_of_getElem? _ _ hb]

/-- The checksum is the only field that is stored later. -/
theorem memory_checked {check : BitVec 16} {k : ℕ} (hk : k < 24 ∨ 26 ≤ k) :
    (checked memory headroom raw check).memory (headroom + k) = (unchecked memory headroom raw).memory (headroom + k) := by
  have hstore : (checked memory headroom raw check).memory =
      UserHost.writeBytes (unchecked memory headroom raw).memory (headroom + 14 + 10) (leBytes 2 check) := rfl
  rw [hstore]
  rcases hk with hlt | hle
  · exact UserHost.writeBytes_of_lt (by omega)
  · exact UserHost.writeBytes_of_le (by rw [length_leBytes]; omega)

/-- A field of two bytes. -/
theorem load16_checked {check : BitVec 16} (k : ℕ) (x : BitVec 16) (hk : k + 2 ≤ 24 ∨ 26 ≤ k)
    (hfield : ∀ i < 2, (headerBytes raw)[k + i]? = (leBytes 2 x)[i]?) :
    load16 (checked memory headroom raw check).memory (headroom + k) = x := by
  refine load16_of_bytes fun i b hb => ?_
  have hi : i < 2 := by
    have hlt := (List.getElem?_eq_some_iff.mp hb).1
    rwa [length_leBytes] at hlt
  rw [Nat.add_assoc, memory_checked (by omega)]
  exact unchecked_header ((hfield i hi).trans hb)

/-- A field of four bytes. -/
theorem load32_checked {check : BitVec 16} (k : ℕ) (x : BitVec 32) (hk : 26 ≤ k)
    (hfield : ∀ i < 4, (headerBytes raw)[k + i]? = (leBytes 4 x)[i]?) :
    load32 (checked memory headroom raw check).memory (headroom + k) = x := by
  refine load32_of_bytes fun i b hb => ?_
  have hi : i < 4 := by
    have hlt := (List.getElem?_eq_some_iff.mp hb).1
    rwa [length_leBytes] at hlt
  rw [Nat.add_assoc, memory_checked (by omega)]
  exact unchecked_header ((hfield i hi).trans hb)

/-- The stored checksum. -/
theorem load16_check (check : BitVec 16) :
    load16 (checked memory headroom raw check).memory (headroom + 24) = check := by
  refine load16_of_bytes fun i b hb => ?_
  have hstore : (checked memory headroom raw check).memory =
      UserHost.writeBytes (unchecked memory headroom raw).memory (headroom + 24) (leBytes 2 check) := rfl
  rw [hstore]
  exact UserHost.writeBytes_of_getElem? _ _ hb

/-- The header length is that of a header without options. -/
theorem ipIhl_unchecked : (unchecked memory headroom raw).ipIhl = 5 := by
  have hbyte : (unchecked memory headroom raw).memory (headroom + 14) = 0x45 := unchecked_header (header_version raw)
  have hheader : (unchecked memory headroom raw).networkHeader = headroom + 14 := rfl
  rw [SkBuff.ipIhl, hheader, hbyte]
  rfl

/-- The IP header with its checksum in place verifies. -/
theorem verifies_checked : ipFastCsum (checked memory headroom raw
    (ipFastCsum (unchecked memory headroom raw).memory (headroom + 14) 5)).memory (headroom + 14) 5 = 0 := by
  generalize hcheck : ipFastCsum (unchecked memory headroom raw).memory (headroom + 14) 5 = check
  have hword (j : ℕ) (hj : j < 10) (hne : j ≠ 5) : load16 (checked memory headroom raw check).memory (headroom + 14 + 2 * j) =
      load16 (unchecked memory headroom raw).memory (headroom + 14 + 2 * j) := by
    have hlow : headroom + 14 + 2 * j = headroom + (14 + 2 * j) := by omega
    rw [load16, load16, hlow, Nat.add_assoc headroom, memory_checked (by omega), memory_checked (by omega)]
  have hzero : load16 (unchecked memory headroom raw).memory (headroom + 14 + 2 * 5) = 0 := by
    have hfirst : (unchecked memory headroom raw).memory (headroom + 24) = 0 := unchecked_header (header_check raw).1
    have hsecond : (unchecked memory headroom raw).memory (headroom + 25) = 0 := unchecked_header (header_check raw).2
    have hload (m : ℕ → BitVec 8) : load16 m (headroom + 14 + 2 * 5) = m (headroom + 25) ++ m (headroom + 24) := rfl
    rw [hload, hfirst, hsecond]
    rfl
  have hstored : load16 (checked memory headroom raw check).memory (headroom + 14 + 2 * 5) = check := load16_check check
  have hlength : (ipWords (unchecked memory headroom raw).memory (headroom + 14) 5).length ≤ 32767 := by
    rw [ipWords, List.length_map, List.length_range]
    decide
  refine InternetChecksum.checksum_of_inserted (InternetChecksum.total_lt hlength) ?_
  have hsum (m : ℕ → BitVec 8) : InternetChecksum.total (ipWords m (headroom + 14) 5) =
      ((List.range 10).map fun j => (load16 m (headroom + 14 + 2 * j)).toNat).sum := by
    rw [InternetChecksum.total, ipWords, List.map_map]
    rfl
  rw [← ipFastCsum, hcheck, hsum, hsum]
  have hrange : List.range 10 = [0, 1, 2, 3, 4, 5, 6, 7, 8, 9] := rfl
  simp only [hrange, List.map_cons, List.map_nil, List.sum_cons, List.sum_nil, hstored, hzero,
    hword 0 (by decide) (by decide), hword 1 (by decide) (by decide), hword 2 (by decide) (by decide),
    hword 3 (by decide) (by decide), hword 4 (by decide) (by decide), hword 6 (by decide) (by decide),
    hword 7 (by decide) (by decide), hword 8 (by decide) (by decide), hword 9 (by decide) (by decide)]
  have hnone : (0 : BitVec 16).toNat = 0 := rfl
  omega

/-- The buffer that is built for a packet does not depend on the packets before. -/
theorem decompose_eq (earlier : List (SkBuff × RawPacket (ℕ → BitVec 8))) :
    decompose earlier (SkBuff.netdevAlloc memory headroom) raw =
      checked memory headroom raw (ipFastCsum (unchecked memory headroom raw).memory (headroom + 14) 5) := by
  have hheader : (unchecked memory headroom raw).networkHeader = headroom + 14 := rfl
  rw [decompose, decomposeNoStrip, populate_premadeAfter]
  change (unchecked memory headroom raw).setIpCheck (ipFastCsum (unchecked memory headroom raw).memory
    (unchecked memory headroom raw).networkHeader (unchecked memory headroom raw).ipIhl) = _
  rw [ipIhl_unchecked, hheader, checked]

/-- A value of 64 bits that fits fewer is that of its lower bits. -/
theorem setWidth_setWidth_of_lt {w : ℕ} {x : BitVec 64} (hw : w ≤ 64) (h : x.toNat < 2 ^ w) :
    (x.setWidth w).setWidth 64 = x := by
  apply BitVec.eq_of_toNat_eq
  rw [BitVec.toNat_setWidth_of_le hw, BitVec.toNat_setWidth, Nat.mod_eq_of_lt h]

variable {check : BitVec 16}

/-- The fields of two bytes: the total length, the ports and the UDP length. -/
theorem header_field16 (raw : RawPacket (ℕ → BitVec 8)) :
    let h := premadeUdpPacket.populate raw
    ∀ i < 2, (headerBytes raw)[16 + i]? = (leBytes 2 h.totalLen)[i]? ∧ (headerBytes raw)[34 + i]? = (leBytes 2 h.sourcePort)[i]? ∧
      (headerBytes raw)[36 + i]? = (leBytes 2 h.destPort)[i]? ∧ (headerBytes raw)[38 + i]? = (leBytes 2 h.payloadLen)[i]? := by
  intro h i hi
  rw [headerBytes_eq]
  have hcases : i = 0 ∨ i = 1 := by omega
  rcases hcases with rfl | rfl <;> exact ⟨rfl, rfl, rfl, rfl⟩

/-- The addresses. -/
theorem header_field32 (raw : RawPacket (ℕ → BitVec 8)) :
    let h := premadeUdpPacket.populate raw
    ∀ i < 4, (headerBytes raw)[26 + i]? = (leBytes 4 h.sourceIp)[i]? ∧ (headerBytes raw)[30 + i]? = (leBytes 4 h.destIp)[i]? := by
  intro h i hi
  rw [headerBytes_eq]
  have hcases : i = 0 ∨ i = 1 ∨ i = 2 ∨ i = 3 := by omega
  rcases hcases with rfl | rfl | rfl | rfl <;> exact ⟨rfl, rfl⟩

/-- The protocol is UDP. -/
theorem header_protocol (raw : RawPacket (ℕ → BitVec 8)) : (headerBytes raw)[23]? = some ipprotoUdp := by
  rw [headerBytes_eq]
  rfl

/-- What the driver reads back from the buffer. -/
structure ReadsBack (raw : RawPacket (ℕ → BitVec 8)) (skb : SkBuff) : Prop where
  protocol : skb.ipProtocol = ipprotoUdp
  totLen : skb.ipTotLen = (premadeUdpPacket.populate raw).totalLen
  saddr : skb.ipSaddr = (premadeUdpPacket.populate raw).sourceIp
  daddr : skb.ipDaddr = (premadeUdpPacket.populate raw).destIp
  source : skb.udpSource = (premadeUdpPacket.populate raw).sourcePort
  dest : skb.udpDest = (premadeUdpPacket.populate raw).destPort
  udpLen : skb.udpLen = (premadeUdpPacket.populate raw).payloadLen

/-- Each field is read where it was put. -/
theorem readsBack_checked : ReadsBack raw (checked memory headroom raw check) := by
  have hnetwork : (checked memory headroom raw check).networkHeader = headroom + 14 := rfl
  have htransport : (checked memory headroom raw check).transportHeader = headroom + 34 := rfl
  constructor
  · rw [SkBuff.ipProtocol, hnetwork]
    exact (memory_checked (Or.inl (by decide))).trans (unchecked_header (header_protocol raw))
  · rw [SkBuff.ipTotLen, hnetwork]
    exact load16_checked 16 _ (Or.inl (by decide)) fun i hi => (header_field16 raw i hi).1
  · rw [SkBuff.ipSaddr, hnetwork]
    exact load32_checked 26 _ (by decide) fun i hi => (header_field32 raw i hi).1
  · rw [SkBuff.ipDaddr, hnetwork]
    exact load32_checked 30 _ (by decide) fun i hi => (header_field32 raw i hi).2
  · rw [SkBuff.udpSource, htransport]
    exact load16_checked 34 _ (Or.inr (by decide)) fun i hi => (header_field16 raw i hi).2.1
  · rw [SkBuff.udpDest, htransport]
    exact load16_checked 36 _ (Or.inr (by decide)) fun i hi => (header_field16 raw i hi).2.2.1
  · rw [SkBuff.udpLen, htransport]
    exact load16_checked 38 _ (Or.inr (by decide)) fun i hi => (header_field16 raw i hi).2.2.2

/-- A length of a packet in network order. -/
theorem toNat_setWidth_add {size : BitVec 64} (h : size.toNat ≤ maxPayloadSize) {n : ℕ} (hn : n ≤ 28) :
    ((size + BitVec.ofNat 64 n).setWidth 16).toNat = n + size.toNat := by
  have hle : size.toNat ≤ 1472 := h
  rw [BitVec.toNat_setWidth, BitVec.toNat_add, BitVec.toNat_ofNat]
  omega

/-- The length of the payload that is read back is the one that was given. -/
theorem udpPayloadSize_checked (h : raw.Sound) :
    (checked memory headroom raw check).udpPayloadSize = raw.payloadSizeBytes := by
  have hsize : raw.payloadSizeBytes.toNat ≤ 1472 := h.size
  have hlen : (raw.payloadSizeBytes + BitVec.ofNat 64 udpHlen).toNat < 2 ^ 16 := by
    rw [BitVec.toNat_add, BitVec.toNat_ofNat]
    simp only [udpHlen]
    omega
  rw [SkBuff.udpPayloadSize, readsBack_checked.udpLen, UdpPacketHdr.populate, swap16_swap16,
    setWidth_setWidth_of_lt (by decide) hlen]
  exact BitVec.add_sub_cancel _ _

/-- Composing the buffer of a packet gives the packet back. -/
theorem compose_checked (h : raw.Sound) : compose (checked memory headroom raw check) = some {
    payloadSizeBytes := raw.payloadSizeBytes
    sourceIp := raw.sourceIp
    sourcePort := raw.sourcePort
    destIp := raw.destIp
    destPort := raw.destPort
    payload := headroom + pktHlen } := by
  have hread : ReadsBack raw (checked memory headroom raw check) := readsBack_checked
  have hsize : (checked memory headroom raw check).udpPayloadSize = raw.payloadSizeBytes := udpPayloadSize_checked h
  have hprotocol : (checked memory headroom raw check).protocol = swap16 ethPIp := rfl
  have hpayload : (checked memory headroom raw check).transportHeader + udpHlen = headroom + pktHlen := rfl
  have hdaddr : swap32 (checked memory headroom raw check).ipDaddr = raw.destIp.setWidth 32 := by
    rw [hread.daddr, UdpPacketHdr.populate, swap32_swap32]
  have hserved : ¬ ((checked memory headroom raw check).ipDaddr = dhcpAddr ∨
      (checked memory headroom raw check).ipDaddr = mdsnAddr) := by
    have hback : (raw.destIp.setWidth 32).setWidth 64 = raw.destIp := setWidth_setWidth_of_lt (by decide) h.destIp
    rw [← hdaddr] at hback
    rintro (hdhcp | hmdns)
    · refine h.served.1 ?_
      rw [← hback, hdhcp]
      decide
    · refine h.served.2 ?_
      rw [← hback, hmdns]
      decide
  have hfits : ¬ BitVec.ofNat 64 maxPayloadSize < raw.payloadSizeBytes := by
    rw [BitVec.not_lt, BitVec.le_def]
    exact h.size
  rw [compose_eq, composeClassic, if_neg (not_not.mpr hprotocol), if_neg (not_not.mpr hread.protocol), if_neg hserved,
    hsize, if_neg hfits, hdaddr, hread.saddr, hread.source, hread.dest, hpayload]
  simp only [UdpPacketHdr.populate, swap16_swap16, swap32_swap32]
  rw [setWidth_setWidth_of_lt (by decide) h.sourceIp, setWidth_setWidth_of_lt (by decide) h.sourcePort,
    setWidth_setWidth_of_lt (by decide) h.destIp, setWidth_setWidth_of_lt (by decide) h.destPort]

/-- The buffer holds the headers and the payload. -/
theorem within_checked : (checked memory headroom raw check).Within (headroom + pktHlen) raw.payloadSizeBytes.toNat := by
  have hdata : (checked memory headroom raw check).data = headroom + ethHlen := rfl
  have hlen : (checked memory headroom raw check).len =
      0 + (headerBytes raw).length + raw.payloadBytes.length - ethHlen := rfl
  have hpayload : raw.payloadBytes.length = raw.payloadSizeBytes.toNat := by
    rw [RawPacket.payloadBytes, List.length_map, List.length_range]
  rw [SkBuff.Within, hdata, hlen, length_headerBytes, hpayload]
  simp only [pktHlen, ethHlen, ipv4Hlen, udpHlen]
  omega

end Built

/-- Whatever was decomposed before, composing the buffer of a packet undoes its decomposition. -/
theorem compose_decompose (earlier : List (SkBuff × RawPacket (ℕ → BitVec 8))) (memory : ℕ → BitVec 8) (headroom : ℕ)
    {raw : RawPacket (ℕ → BitVec 8)} (h : raw.Sound) :
    Undone raw (decompose earlier (SkBuff.netdevAlloc memory headroom) raw) := by
  rw [decompose_eq]
  generalize hcheck : ipFastCsum (unchecked memory headroom raw).memory (headroom + 14) 5 = check
  have hread : ReadsBack raw (checked memory headroom raw check) := readsBack_checked
  have hversion : (checked memory headroom raw check).memory (headroom + 14) = 0x45 :=
    (memory_checked (Or.inl (by decide))).trans (unchecked_header (header_version raw))
  have hihl : (checked memory headroom raw check).ipIhl = 5 := by
    have hheader : (checked memory headroom raw check).networkHeader = headroom + 14 := rfl
    rw [SkBuff.ipIhl, hheader, hversion]
    rfl
  refine ⟨hversion, ?_, ?_, ?_, ?_⟩
  · rw [hread.totLen, UdpPacketHdr.populate, swap16_swap16, BitVec.add_comm]
    exact toNat_setWidth_add h.size (Nat.le_refl _)
  · rw [hihl, ← hcheck]
    exact verifies_checked
  · rw [hread.udpLen, UdpPacketHdr.populate, swap16_swap16]
    exact toNat_setWidth_add h.size (by decide)
  · refine ⟨_, compose_checked h, rfl, rfl, rfl, rfl, rfl, within_checked, fun i hi => ?_⟩
    rw [Nat.add_assoc, memory_checked (Or.inr (by simp only [pktHlen, ethHlen, ipv4Hlen, udpHlen]; omega)), ← Nat.add_assoc]
    exact unchecked_payload hi

/-- A packet of three bytes, after one to another address. -/
theorem compose_decompose_three :
    let raw : RawPacket (ℕ → BitVec 8) := ⟨3, 0xC0A80102, 7400, 0xC0A80132, 7401, fun i => BitVec.ofNat 8 i⟩
    Undone raw (decompose [(SkBuff.netdevAlloc (fun _ => 0) 64, ⟨1472, 1, 2, 3, 4, fun _ => 0xFF⟩)]
      (SkBuff.netdevAlloc (fun _ => 0) 64) raw) :=
  compose_decompose _ _ _ ⟨by decide, by decide, by decide, by decide, by decide, by decide, by decide⟩

end Kernel

end UdpIpCore
