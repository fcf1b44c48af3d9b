import UdpIpCore.ByteOrder
import UdpIpCore.Lanes
import UdpIpCore.Rx.SlotLength
import UdpIpCore.Tx.PayloadFrame
import UdpIpCore.Userspace.Recvfrom

/-!
# Datagrams in slots

A slot of either ring holds a datagram in one format: five words of a little-endian machine with
the length of the payload, the addresses and the ports, and the payload behind them. The drivers
write and read it byte by byte, the header adder and the header remover word by word.
-/

namespace UdpIpCore

open ByteOrder

/-- A UDP datagram that fits a slot. -/
structure Datagram where
  sourceIp : BitVec 32
  sourcePort : BitVec 16
  destIp : BitVec 32
  destPort : BitVec 16
  payload : List (BitVec 8)
  fits : payload.length ≤ 2008

/-- A value of eight bytes is known by them. -/
theorem eq_of_bytes {x y : BitVec 64} (h : ∀ j < 8, x.extractLsb' (8 * j) 8 = y.extractLsb' (8 * j) 8) : x = y := by
  refine Lanes.eq_of_lanes (n := 8) (w := 8) fun j hj => ?_
  rw [Lanes.lane, Lanes.lane, Nat.mul_comm j 8]
  exact h j hj

/-- The words of a slot as they are on the bus. -/
def Slot.words (slot : Slot) : TxSlot := fun k => load64 slot (8 * k)

namespace Datagram

variable {d : Datagram} {slot : Slot}

/-- A word of the header. -/
def word (d : Datagram) : ℕ → BitVec 64
  | 0 => BitVec.ofNat 64 d.payload.length
  | 1 => d.sourceIp.setWidth 64
  | 2 => d.sourcePort.setWidth 64
  | 3 => d.destIp.setWidth 64
  | 4 => d.destPort.setWidth 64
  | _ => 0

/-- The datagram as the drivers handle it. -/
def packet (d : Datagram) : UdpPacket := ⟨(List.range UdpHeader.numWords).flatMap fun k => leBytes 8 (d.word k), d.payload⟩

/-- The header that is presented to the UDP stack. -/
def txHeader (d : Datagram) : UdpHeader := ⟨d.sourceIp, d.sourcePort, d.destIp, d.destPort, BitVec.ofNat 16 d.payload.length⟩

/-- The slot begins with the datagram. -/
def In (d : Datagram) (slot : Slot) : Prop := ∀ k b, (d.packet.header ++ d.packet.payload)[k]? = some b → slot k = b

/-- The header has five words. -/
theorem length_header (d : Datagram) : d.packet.header.length = Udriver.packetHdrSizeBytes := by
  simp [packet, List.range, List.range.loop]

/-- The bytes of the header. -/
theorem header_eq (d : Datagram) :
    d.packet.header = (List.range Udriver.packetHdrSizeBytes).map fun m => (d.word (m / 8)).extractLsb' (8 * (m % 8)) 8 := rfl

/-- One byte of the header. -/
theorem getElem?_header (d : Datagram) {k j : ℕ} (hk : k < UdpHeader.numWords) (hj : j < 8) :
    d.packet.header[8 * k + j]? = some ((d.word k).extractLsb' (8 * j) 8) := by
  have hlt : 8 * k + j < Udriver.packetHdrSizeBytes := by
    simp only [UdpHeader.numWords, Udriver.packetHdrSizeBytes] at hk ⊢
    omega
  have hdiv : (8 * k + j) / 8 = k := by omega
  have hmod : (8 * k + j) % 8 = j := by omega
  rw [header_eq, List.getElem?_map, List.getElem?_range hlt, Option.map_some, hdiv, hmod]

/-- The header words in a slot. -/
theorem In.word_eq (h : d.In slot) {k : ℕ} (hk : k < UdpHeader.numWords) : slot.words k = d.word k := by
  refine eq_of_bytes fun j hj => ?_
  rw [Slot.words, extractLsb'_load64 slot _ hj]
  refine h _ _ ?_
  rw [List.getElem?_append_left, getElem?_header d hk hj]
  rw [length_header]
  simp only [UdpHeader.numWords, Udriver.packetHdrSizeBytes] at hk ⊢
  omega

/-- The payload bytes in a slot. -/
theorem In.payload_eq (h : d.In slot) {n : ℕ} (hn : n < d.payload.length) :
    slot (Udriver.packetHdrSizeBytes + n) = d.payload[n] := by
  refine h _ _ ?_
  rw [List.getElem?_append_right (by rw [length_header]; exact Nat.le_add_right _ _), length_header, Nat.add_sub_cancel_left]
  exact List.getElem?_eq_getElem hn

/-- What the header remover finds in the slot. -/
theorem In.header_words (h : d.In slot) : slot.words.header = d.txHeader := by
  have hword (k : ℕ) (hk : k < UdpHeader.numWords) := h.word_eq hk
  rw [TxSlot.header, hword 0 (by decide), hword 1 (by decide), hword 2 (by decide), hword 3 (by decide), hword 4 (by decide)]
  simp [word, txHeader]

/-- The length that is stored. -/
theorem In.len_words (h : d.In slot) : slot.words.len = d.payload.length := by
  have hfits := d.fits
  rw [TxSlot.len, h.header_words, txHeader, BitVec.toNat_ofNat]
  exact Nat.mod_eq_of_lt (by omega)

/-- The payload that is stored. -/
theorem In.payloadBytes_words (h : d.In slot) : slot.words.payloadBytes = d.payload := by
  rw [TxSlot.payloadBytes, h.len_words]
  refine List.ext_getElem (by simp) fun n hn hn' => ?_
  rw [List.getElem_map, List.getElem_range, byteAt, Slot.words, extractLsb'_load64 slot _ (Nat.mod_lt n (by decide)),
    ← h.payload_eq hn']
  congr 1
  simp only [UdpHeader.numWords, Udriver.packetHdrSizeBytes]
  omega

/-- A word read byte by byte. -/
theorem payloadSizeBytes_leBytes (w : BitVec 64) (rest : List (BitVec 8)) :
    Udriver.payloadSizeBytes (leBytes 8 w ++ rest) = w.toNat := by
  have hlt := w.isLt
  simp only [Udriver.payloadSizeBytes, leBytes, List.range, List.range.loop, List.map_cons, List.map_nil, List.cons_append,
    List.nil_append, List.take_succ_cons, List.take_zero, List.foldr_cons, List.foldr_nil, BitVec.extractLsb'_toNat,
    Nat.shiftRight_eq_div_pow]
  omega

/-- The words the drivers read from the header. -/
theorem headerWord_eq (d : Datagram) {k : ℕ} (hk : k < UdpHeader.numWords) : d.packet.headerWord k = (d.word k).toNat := by
  match k, hk with
  | 0, _ => exact payloadSizeBytes_leBytes (d.word 0) _
  | 1, _ => exact payloadSizeBytes_leBytes (d.word 1) _
  | 2, _ => exact payloadSizeBytes_leBytes (d.word 2) _
  | 3, _ => exact payloadSizeBytes_leBytes (d.word 3) _
  | 4, _ => exact payloadSizeBytes_leBytes (d.word 4) _

/-- The length that is read from the header. -/
theorem payloadSizeBytes_header (d : Datagram) : Udriver.payloadSizeBytes d.packet.header = d.payload.length := by
  have hword : d.packet.headerWord 0 = (d.word 0).toNat := headerWord_eq d (by decide)
  have hfits := d.fits
  refine hword.trans ?_
  rw [word, BitVec.toNat_ofNat]
  exact Nat.mod_eq_of_lt (by omega)

/-- What a driver reads from the slot. -/
theorem In.packet_eq (h : d.In slot) : slot.packet = d.packet := by
  have hheader : (List.range Udriver.packetHdrSizeBytes).map slot = d.packet.header := by
    rw [header_eq]
    refine List.map_congr_left fun m hm => h m _ ?_
    rw [List.getElem?_append_left (by rw [length_header]; exact List.mem_range.mp hm), header_eq, List.getElem?_map,
      List.getElem?_range (List.mem_range.mp hm), Option.map_some]
  have hpayload : ((List.range d.payload.length).map fun k => slot (Udriver.packetHdrSizeBytes + k)) = d.payload := by
    refine List.ext_getElem (by simp) fun n hn hn' => ?_
    rw [List.getElem_map, List.getElem_range, h.payload_eq hn']
  rw [Slot.packet, hheader, payloadSizeBytes_header, hpayload]
  rfl

/-- It ends within the slot. -/
theorem In.slotFits (h : d.In slot) : slot.Fits := by
  have hheader : (List.range Udriver.packetHdrSizeBytes).map slot = d.packet.header := congrArg UdpPacket.header h.packet_eq
  have hfits := d.fits
  rw [Slot.Fits, hheader, payloadSizeBytes_header, Udriver.packetHdrSizeBytes, bufferElemMaxSize]
  omega

/-- It is in every slot with the same bytes. -/
theorem In.congr {other : Slot} (h : d.In slot) (hagrees : slot.Agrees other) : d.In other := by
  intro k b hb
  have hlt : k < (d.packet.header ++ d.packet.payload).length := (List.getElem?_eq_some_iff.mp hb).1
  have hpayload : d.packet.payload.length ≤ 2008 := d.fits
  rw [List.length_append, length_header, Udriver.packetHdrSizeBytes] at hlt
  rw [← hagrees k (by rw [bufferElemMaxSize]; omega)]
  exact h k b hb

/-- A packet with the bytes in the slot is the datagram. -/
theorem In.eq_packet {packet : UdpPacket} (h : d.In slot) (hshows : slot.Shows packet) : packet = d.packet :=
  (hshows.eq_packet h.slotFits).trans h.packet_eq

/-- The header as the UDP stack presents it, with the length of a UDP header in it. -/
def rxHeader (d : Datagram) : UdpHeader := ⟨d.sourceIp, d.sourcePort, d.destIp, d.destPort, BitVec.ofNat 16 (d.payload.length + 8)⟩

/-- The length in the header. -/
theorem toNat_rxHeader (d : Datagram) : d.rxHeader.udpLength.toNat = d.payload.length + 8 := by
  have hfits := d.fits
  rw [rxHeader, BitVec.toNat_ofNat]
  exact Nat.mod_eq_of_lt (by omega)

/-- The header adder writes the words of the datagram. -/
theorem word_rxHeader (d : Datagram) {k : ℕ} (hk : k < UdpHeader.numWords) : d.rxHeader.word k = d.word k := by
  match k, hk with
  | 0, _ =>
    apply BitVec.eq_of_toNat_eq
    have hfits := d.fits
    have hlength := d.toNat_rxHeader
    have hword : (d.word 0).toNat = d.payload.length % 2 ^ 64 := BitVec.toNat_ofNat _ _
    rw [toNat_word_zero, hlength, if_pos (by omega), hword, Nat.mod_eq_of_lt (by omega)]
    omega
  | 1, _ | 2, _ | 3, _ | 4, _ => rfl

end Datagram

/-- A received packet with a datagram: the header that is presented, and its payload without a gap. -/
structure Packet.Carries (q : Packet) (d : Datagram) : Prop where
  header : q.hdr = d.rxHeader
  packs : q.Packs d.payload.length
  bytes : ∀ n (hn : n < d.payload.length), ∃ b, q.payload[n / 8]? = some b ∧ byteAt b.tdata (n % 8) = d.payload[n]

namespace Packet

open WriteJob

variable {q : Packet} {d : Datagram}

/-- The beats of the burst that are part of the frame. -/
theorem getElem?_burst_frame {len i : ℕ} {b : Beat} (hb : q.frame[i]? = some b) (hi : i < burstLength len) :
    (burst len q.frame)[i]? = some ⟨b.tdata, strobe len i b, decide (i + 1 = burstLength len)⟩ := by
  rw [getElem?_burst, if_pos hi, wbeat, hb]

/-- The slot holds the datagram once the burst was written, whatever it held before. -/
theorem Carries.in_store (h : q.Carries d) (slot : Slot) :
    d.In (slot.store (burst (min (q.hdr.udpLength.toNat + 40) 2048) q.frame)) := by
  have hfits := d.fits
  have hlen : min (q.hdr.udpLength.toNat + 40) 2048 = min (d.payload.length + 48) 2048 := by
    rw [h.header, d.toNat_rxHeader]
  rw [hlen]
  intro k b hb
  by_cases hheader : k < Udriver.packetHdrSizeBytes
  · have hword : k / 8 < UdpHeader.numWords := Nat.div_lt_of_lt_mul hheader
    have hburst : k / 8 + 1 < burstLength (min (d.payload.length + 48) 2048) := by
      simp only [UdpHeader.numWords, burstLength] at hword ⊢
      omega
    have hframe : q.frame[k / 8]? = some (q.hdr.beat (k / 8)) := by
      rw [Packet.frame, List.getElem?_append_left (by rw [UdpHeader.length_beats]; exact hword), UdpHeader.beats,
        List.getElem?_map, List.getElem?_range hword, Option.map_some]
    have hstrobe : strobe (min (d.payload.length + 48) 2048) (k / 8) (q.hdr.beat (k / 8)) = 0xFF := by
      rw [strobe_of_not_cut fun hcut => absurd hcut.1 (Nat.ne_of_lt hburst)]
      rfl
    rw [Slot.store, getElem?_burst_frame hframe (by omega), hstrobe]
    dsimp only
    rw [getLsbD_full (Nat.mod_lt k (by decide)), if_pos rfl, h.header]
    rw [List.getElem?_append_left (by rw [Datagram.length_header]; exact hheader), Datagram.header_eq, List.getElem?_map,
      List.getElem?_range hheader, Option.map_some] at hb
    rw [← Option.some.inj hb, ← d.word_rxHeader hword]
    rfl
  · obtain ⟨n, rfl⟩ := Nat.exists_eq_add_of_le (Nat.le_of_not_lt hheader)
    rw [List.getElem?_append_right (by rw [Datagram.length_header]; exact Nat.le_add_right _ _), Datagram.length_header,
      Nat.add_sub_cancel_left] at hb
    obtain ⟨hn, hbyte⟩ : ∃ hn : n < d.payload.length, d.payload[n] = b := List.getElem?_eq_some_iff.mp hb
    obtain ⟨beat, hbeat, hdata⟩ := h.bytes n hn
    have hdiv : (Udriver.packetHdrSizeBytes + n) / 8 = UdpHeader.numWords + n / 8 := by
      simp only [Udriver.packetHdrSizeBytes, UdpHeader.numWords]
      omega
    have hmod : (Udriver.packetHdrSizeBytes + n) % 8 = n % 8 := by
      simp only [Udriver.packetHdrSizeBytes]
      omega
    have hframe : q.frame[(Udriver.packetHdrSizeBytes + n) / 8]? = some beat := by
      rw [hdiv, Packet.frame, List.getElem?_append_right (by rw [UdpHeader.length_beats]; exact Nat.le_add_right _ _),
        UdpHeader.length_beats, Nat.add_sub_cancel_left, hbeat]
    have hlt : (Udriver.packetHdrSizeBytes + n) / 8 < burstLength (min (d.payload.length + 48) 2048) := by
      simp only [hdiv, UdpHeader.numWords, burstLength]
      omega
    have hstored := stored_burst h.packs n
    rw [decide_eq_true ⟨hn, by omega⟩, stored, getElem?_burst_frame hframe hlt, Option.any_some] at hstored
    dsimp only at hstored
    rw [Slot.store, getElem?_burst_frame hframe hlt]
    dsimp only
    rw [if_pos hstored, hmod, ← hbyte, ← hdata]
    rfl

end Packet

/-- What the UDP stacks and the wire make of what the header remover presents to them: the header stays but for the length,
which is then that of the UDP datagram, and the payload stays as it is. -/
structure Wired (s : TxSlot) (q : Packet) : Prop where
  hdr : q.hdr = { s.header with udpLength := s.header.udpLength + 8 }
  payload : q.payload = s.payload TxSlot.payloadBeats

namespace Datagram

variable {d : Datagram} {slot : Slot} {q : Packet}

/-- The payload of the slot is one frame with the payload of the datagram. -/
theorem In.frame (h : d.In slot) (hword : 8 ≤ d.payload.length) :
    Framing.Frame Beat.tlast (slot.words.payload TxSlot.payloadBeats) ∧
      (slot.words.payload TxSlot.payloadBeats).flatMap Beat.kept = d.payload := by
  have hlen := h.len_words
  have hcarries := TxSlot.carries_of_word (s := slot.words) (by rw [hlen]; exact hword) (by rw [hlen]; exact d.fits)
  exact ⟨hcarries.framed, hcarries.bytes.trans h.payloadBytes_words⟩

/-- The packet that comes over the wire carries the datagram. -/
theorem In.carries (h : d.In slot) (hword : 8 ≤ d.payload.length) (hwired : Wired slot.words q) : q.Carries d := by
  have hlen := h.len_words
  have hfits := d.fits
  have hpayload := hwired.payload
  have hframe : slot.words.frameLength = (d.payload.length + 7) / 8 := by rw [TxSlot.frameLength, hlen]
  rw [TxSlot.payload_eq (by rw [hlen]; exact hword) (by rw [hlen]; exact hfits), hframe] at hpayload
  have hlength : q.payload.length = (d.payload.length + 7) / 8 := by
    rw [hpayload, List.length_map, List.length_range]
  have hbeat {k : ℕ} (hk : k < (d.payload.length + 7) / 8) : q.payload[k]? = some (slot.words.frameBeat k) := by
    rw [hpayload, List.getElem?_map, List.getElem?_range hk, Option.map_some]
  refine ⟨?_, ⟨by omega, fun k hk => ?_⟩, fun n hn => ?_⟩
  · rw [hwired.hdr, h.header_words, rxHeader, txHeader, BitVec.ofNat_add]
    rfl
  · have hmore : 8 * (k / 8) < slot.words.len := by omega
    have hkeep : (AxisHeaderRemover.forwardedTkeep slot.words.header.udpLength (k / 8) 0xFF).getLsbD (k % 8) =
        decide (k % 8 < min 8 (slot.words.len - 8 * (k / 8))) :=
      AxisHeaderRemover.getLsbD_forwardedTkeep (by rw [← TxSlot.len, hlen]; exact hword) hmore (Nat.mod_lt k (by decide))
    rw [hbeat (by omega), Option.any_some]
    refine hkeep.trans ?_
    rw [hlen, decide_eq_decide]
    omega
  · refine ⟨_, hbeat (by omega), ?_⟩
    rw [← h.payload_eq hn]
    show byteAt (slot.words (UdpHeader.numWords + n / 8)) (n % 8) = _
    rw [byteAt, Slot.words, extractLsb'_load64 slot _ (Nat.mod_lt n (by decide))]
    congr 1
    simp only [UdpHeader.numWords, Udriver.packetHdrSizeBytes]
    omega

end Datagram

end UdpIpCore
