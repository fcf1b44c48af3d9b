import UdpIpCore.ByteOrder
import UdpIpCore.Userspace.UserHost

/-!
# Socket buffers

A linear `sk_buff` as the driver uses it: the memory of its buffer, the part of it that
holds data, and the offsets of its headers.
-/

namespace UdpIpCore

namespace Kernel

/-- `struct sk_buff`. -/
structure SkBuff where
  /-- The memory from `head` on; it goes on behind the buffer. -/
  memory : ℕ → BitVec 8
  /-- The offset of `data` from `head`. -/
  data : ℕ
  len : ℕ
  macHeader : ℕ
  networkHeader : ℕ
  transportHeader : ℕ
  /-- In network order. -/
  protocol : BitVec 16
  /-- `sk->sk_family`, if the buffer belongs to a socket. -/
  skFamily : Option (BitVec 16)
  /-- `ip_summed` is `CHECKSUM_UNNECESSARY`. -/
  checksumUnnecessary : Bool

namespace SkBuff

/-- `netdev_alloc_skb`: an empty buffer with some headroom. -/
def netdevAlloc (memory : ℕ → BitVec 8) (headroom : ℕ) : SkBuff where
  memory := memory
  data := headroom
  len := 0
  macHeader := 0
  networkHeader := 0
  transportHeader := 0
  protocol := 0
  skFamily := none
  checksumUnnecessary := false

/-- `skb_put_data`. -/
def putData (skb : SkBuff) (bytes : List (BitVec 8)) : SkBuff :=
  { skb with
    memory := UserHost.writeBytes skb.memory (skb.data + skb.len) bytes
    len := skb.len + bytes.length }

/-- `skb_pull`. -/
def pull (skb : SkBuff) (len : ℕ) : SkBuff := { skb with data := skb.data + len, len := skb.len - len }

/-- `skb_reset_mac_header`. -/
def resetMacHeader (skb : SkBuff) : SkBuff := { skb with macHeader := skb.data }

/-- `skb_reset_network_header`. -/
def resetNetworkHeader (skb : SkBuff) : SkBuff := { skb with networkHeader := skb.data }

/-- `skb_set_transport_header`. -/
def setTransportHeader (skb : SkBuff) (offset : ℕ) : SkBuff := { skb with transportHeader := skb.data + offset }

/-- The bytes that `data` and `len` delimit. -/
def Within (skb : SkBuff) (offset size : ℕ) : Prop := skb.data ≤ offset ∧ offset + size ≤ skb.data + skb.len

instance (skb : SkBuff) (offset size : ℕ) : Decidable (skb.Within offset size) := inferInstanceAs (Decidable (_ ∧ _))

end SkBuff

/-- `ETH_HLEN`. -/
abbrev ethHlen : ℕ := 14

/-- `IPV4_HLEN`. -/
abbrev ipv4Hlen : ℕ := 20

/-- `UDP_HLEN`. -/
abbrev udpHlen : ℕ := 8

/-- `PKT_HLEN`. -/
abbrev pktHlen : ℕ := ethHlen + ipv4Hlen + udpHlen

/-- `MAX_PAYLOAD_SIZE`. -/
abbrev maxPayloadSize : ℕ := 1500 - ipv4Hlen - udpHlen

/-- `ETH_P_IP`. -/
def ethPIp : BitVec 16 := 0x0800

/-- `IPPROTO_UDP`. -/
def ipprotoUdp : BitVec 8 := 17

/-- `PF_PACKET`. -/
def pfPacket : BitVec 16 := 17

/-- `struct udp_core_raw_packet`; what `payload` points to is left to each use. -/
structure RawPacket (Payload : Type) where
  payloadSizeBytes : BitVec 64
  sourceIp : BitVec 64
  sourcePort : BitVec 64
  destIp : BitVec 64
  destPort : BitVec 64
  payload : Payload

/-- The words of the header, as they are copied from and to a slot. -/
def RawPacket.header {Payload : Type} (p : RawPacket Payload) : List (BitVec 8) :=
  ByteOrder.leBytes 8 p.payloadSizeBytes ++ ByteOrder.leBytes 8 p.sourceIp ++ ByteOrder.leBytes 8 p.sourcePort ++
    ByteOrder.leBytes 8 p.destIp ++ ByteOrder.leBytes 8 p.destPort

end Kernel

end UdpIpCore
