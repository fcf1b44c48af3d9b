import UdpIpCore.Kernel.SkBuff

/-!
# Composing packets

`udp_core_pkt_compose` reads the addresses, the ports and the length of a UDP packet from a
socket buffer. The length comes from the UDP header alone, so it says nothing about how many
bytes the buffer has.
-/

namespace UdpIpCore

namespace Kernel

open ByteOrder

/-- `DHCP_ADDR`. -/
def dhcpAddr : BitVec 32 := 0xFFFFFFFF

/-- `MDSN_ADDR`. -/
def mdsnAddr : BitVec 32 := 0xFB0000E0

namespace SkBuff

/-- `ip_hdr(skb)->protocol`. -/
def ipProtocol (skb : SkBuff) : BitVec 8 := skb.memory (skb.networkHeader + 9)

/-- `ip_hdr(skb)->saddr`. -/
def ipSaddr (skb : SkBuff) : BitVec 32 := load32 skb.memory (skb.networkHeader + 12)

/-- `ip_hdr(skb)->daddr`. -/
def ipDaddr (skb : SkBuff) : BitVec 32 := load32 skb.memory (skb.networkHeader + 16)

/-- `udp_hdr(skb)->source`. -/
def udpSource (skb : SkBuff) : BitVec 16 := load16 skb.memory skb.transportHeader

/-- `udp_hdr(skb)->dest`. -/
def udpDest (skb : SkBuff) : BitVec 16 := load16 skb.memory (skb.transportHeader + 2)

/-- `udp_hdr(skb)->len`. -/
def udpLen (skb : SkBuff) : BitVec 16 := load16 skb.memory (skb.transportHeader + 4)

/-- `ntohs(udph->len) - UDP_HLEN`, in the type of `sizeof`. -/
def udpPayloadSize (skb : SkBuff) : BitVec 64 := (swap16 skb.udpLen).setWidth 64 - BitVec.ofNat 64 udpHlen

end SkBuff

/-- `udp_core_pkt_compose_classic`, with the offset of the payload from `head`; a refused buffer gives nothing. -/
def composeClassic (skb : SkBuff) : Option (RawPacket ℕ) :=
  if skb.protocol ≠ swap16 ethPIp then none
  else if skb.ipProtocol ≠ ipprotoUdp then none
  -- DHCP and mDNS are not supported by the hardware
  else if skb.ipDaddr = dhcpAddr ∨ skb.ipDaddr = mdsnAddr then none
  else if BitVec.ofNat 64 maxPayloadSize < skb.udpPayloadSize then none
  else some {
    payloadSizeBytes := skb.udpPayloadSize
    sourceIp := (swap32 skb.ipSaddr).setWidth 64
    sourcePort := (swap16 skb.udpSource).setWidth 64
    destIp := (swap32 skb.ipDaddr).setWidth 64
    destPort := (swap16 skb.udpDest).setWidth 64
    payload := skb.transportHeader + udpHlen }

/-- `udp_core_pkt_compose_raw`. -/
def composeRaw (skb : SkBuff) : Option (RawPacket ℕ) :=
  if skb.protocol = swap16 ethPIp then composeClassic skb else none

/-- `udp_core_pkt_compose` with `NON_RAW_USAGE_ENABLED`. -/
def compose (skb : SkBuff) : Option (RawPacket ℕ) :=
  if skb.skFamily = some pfPacket then composeRaw skb else composeClassic skb

section Compose

variable {skb : SkBuff} {p : RawPacket ℕ}

/-- Raw sockets are treated as all others. -/
theorem compose_eq (skb : SkBuff) : compose skb = composeClassic skb := by
  rw [compose, composeRaw]
  split
  · split
    · rfl
    · rename_i hprotocol
      rw [composeClassic, if_pos hprotocol]
  · rfl

/-- The length of the payload is that of the UDP header less its own, without a wrap. -/
theorem toNat_udpPayloadSize (h : skb.udpPayloadSize ≤ BitVec.ofNat 64 maxPayloadSize) :
    skb.udpPayloadSize.toNat + udpHlen = (swap16 skb.udpLen).toNat ∧ skb.udpPayloadSize.toNat ≤ maxPayloadSize := by
  have hlt := (swap16 skb.udpLen).isLt
  have hle : skb.udpPayloadSize.toNat ≤ 1472 := BitVec.le_def.mp h
  have hsub : skb.udpPayloadSize.toNat = (2 ^ 64 - 8 + (swap16 skb.udpLen).toNat) % 2 ^ 64 := by
    have hwide : ((swap16 skb.udpLen).setWidth 64).toNat = (swap16 skb.udpLen).toNat := BitVec.toNat_setWidth_of_le (by decide)
    rw [SkBuff.udpPayloadSize, BitVec.toNat_sub, hwide]
    rfl
  refine ⟨?_, hle⟩
  -- a length below that of the header wraps to one that is refused
  by_cases hshort : (swap16 skb.udpLen).toNat < 8
  · omega
  · change _ + 8 = _
    omega

/-- What an accepted buffer is composed to. -/
theorem of_compose (h : compose skb = some p) :
    skb.udpPayloadSize ≤ BitVec.ofNat 64 maxPayloadSize ∧ p.payloadSizeBytes = skb.udpPayloadSize ∧
      p.payload = skb.transportHeader + udpHlen := by
  rw [compose_eq, composeClassic] at h
  split at h
  · exact absurd h (by simp)
  · split at h
    · exact absurd h (by simp)
    · split at h
      · exact absurd h (by simp)
      · split at h
        · exact absurd h (by simp)
        · rename_i hlong
          obtain rfl := Option.some.inj h
          exact ⟨BitVec.not_lt.mp hlong, rfl, rfl⟩

end Compose

end Kernel

end UdpIpCore
