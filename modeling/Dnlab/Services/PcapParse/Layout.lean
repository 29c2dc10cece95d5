import Dnlab.Lib.Ip
import Dnlab.Services.PcapParse.Chunks

/-!
# The layout of packets

A packet and its bytes: a frame of Ethernet, with or without a tag, or none; a
header of version 4 or 6 of the protocol, with its options or its extension
headers; and what it carries. The lengths in the headers are those of what
follows. The parser reads such a packet as `Packet.parsed` (`parseFrame_encode`):
as what it is, but for the length of what a TCP segment carries behind extension
headers, which are counted in (`reads_iff`).
-/

namespace Dnlab.PcapParse

open ExceptRules (bind_eq_ok)

/-! ## Fields -/

/-- The bytes of a number, the highest first. -/
def bytesOf : (width n : ℕ) → List UInt8
  | 0, _ => []
  | width + 1, n => bytesOf width (n / 256) ++ [.ofNat n]

/-- The bytes of fields, each of a width and a value. -/
def layout (fields : List (ℕ × ℕ)) : List UInt8 := fields.flatMap fun f => bytesOf f.1 f.2

@[simp] theorem length_bytesOf (width n : ℕ) : (bytesOf width n).length = width := by
  induction width generalizing n with
  | zero => rfl
  | succ width ih => rw [bytesOf, List.length_append, ih, List.length_singleton]

/-- A number that fits into its bytes is read back. -/
theorem value_bytesOf {width n : ℕ} (h : n < 256 ^ width) :
    Endian.big.value (bytesOf width n) = n := by
  induction width generalizing n with
  | zero => exact (Nat.lt_one_iff.1 h).symm
  | succ width ih =>
    have hdiv : n / 256 < 256 ^ width := Nat.div_lt_of_lt_mul (by rwa [pow_succ'] at h)
    have := ih hdiv
    rw [Endian.value] at this ⊢
    rw [bytesOf, List.foldl_append, this]
    simp only [List.foldl_cons, List.foldl_nil, UInt8.toNat_ofNat']
    omega

theorem unpackOne_bytesOf {width n : ℕ} (h : n < 256 ^ width) :
    unpackOne .big width (bytesOf width n) = .ok n := by
  rw [unpackOne_eq (length_bytesOf width n), value_bytesOf h]

theorem length_layout (fields : List (ℕ × ℕ)) :
    (layout fields).length = (fields.map Prod.fst).sum := by
  simp [layout, List.length_flatMap]

/-- Fields are read back together. -/
theorem unpack_layout (fields : List (ℕ × ℕ)) (h : ∀ f ∈ fields, f.2 < 256 ^ f.1) :
    unpack .big (fields.map Prod.fst) (layout fields) = .ok (fields.map Prod.snd) := by
  rw [unpack_eq (length_layout fields)]
  congr 1
  induction fields with
  | nil => rfl
  | cons f fields ih =>
    have hf := value_bytesOf (h f List.mem_cons_self)
    have hlen := length_bytesOf f.1 f.2
    simp only [layout, List.flatMap_cons, List.map_cons, Endian.values]
    rw [List.take_left' hlen, List.drop_left' hlen, hf]
    congr 1
    exact ih fun g hg => h g (List.mem_cons_of_mem _ hg)

/-! ## Packets -/

/-- The options of a header are whole words, as many as its length leaves room for. -/
structure Options where
  bytes : List UInt8
  words : ℕ
  length_eq : bytes.length = 4 * words
  words_le : words ≤ 10

/-- What a packet carries, but for the payload. -/
inductive Transport
  | icmp (type code : UInt8) (checksum id seq : UInt16)
  | icmpv6 (type code : UInt8) (checksum id seq : UInt16)
  | tcp (srcPort dstPort : UInt16) (seq ack : UInt32) (reserved : Fin 16) (flags : UInt8)
      (window checksum urgent : UInt16) (options : Options)
  | udp (srcPort dstPort checksum : UInt16)

namespace Transport

def protoNum : Transport → ℕ
  | icmp .. => ipprotoIcmp
  | icmpv6 .. => ipprotoIcmpv6
  | tcp .. => ipprotoTcp
  | udp .. => ipprotoUdp

def proto : Transport → String
  | icmp .. => "icmp"
  | icmpv6 .. => "icmp6"
  | tcp .. => "tcp"
  | udp .. => "udp"

/-- The ports of the two ends. -/
def ports : Transport → Option (ℕ × ℕ)
  | tcp srcPort dstPort .. | udp srcPort dstPort .. => some (srcPort.toNat, dstPort.toNat)
  | _ => none

/-- The identity of an ICMP message. -/
def identity : Transport → Option (ℕ × ℕ)
  | icmp _ _ _ id seq | icmpv6 _ _ _ id seq => some (id.toNat, seq.toNat)
  | _ => none

def isTcp : Transport → Bool
  | tcp .. => true
  | _ => false

/-- The bytes, with those of the payload. -/
def encode (payload : List UInt8) : Transport → List UInt8
  | icmp type code checksum id seq | icmpv6 type code checksum id seq =>
    layout [(1, type.toNat), (1, code.toNat), (2, checksum.toNat), (2, id.toNat), (2, seq.toNat)]
      ++ payload
  | tcp srcPort dstPort seq ack reserved flags window checksum urgent options =>
    layout [(2, srcPort.toNat), (2, dstPort.toNat), (4, seq.toNat), (4, ack.toNat),
      (1, (5 + options.words) * 16 + reserved), (1, flags.toNat), (2, window.toNat),
      (2, checksum.toNat), (2, urgent.toNat)] ++ (options.bytes ++ payload)
  | udp srcPort dstPort checksum =>
    layout [(2, srcPort.toNat), (2, dstPort.toNat), (2, 8 + payload.length), (2, checksum.toNat)]
      ++ payload

end Transport

/-- The header of version 4 of a packet that is whole. -/
structure Ipv4Header where
  tos : UInt8
  id : UInt16
  dontFragment : Bool
  ttl : UInt8
  checksum : UInt16
  src : Fin (2 ^ 32)
  dst : Fin (2 ^ 32)
  options : Options

/-- The extension headers that say nothing of fragments. -/
inductive ExtKind
  | hopByHop | routing | destination
  deriving DecidableEq

def ExtKind.number : ExtKind → ℕ
  | hopByHop => 0
  | routing => 43
  | destination => 60

/-- An extension header. Its length counts units of eight bytes, without the first. -/
structure ExtHeader where
  kind : ExtKind
  units : UInt8
  body : List UInt8
  length_body : body.length = 6 + 8 * units.toNat

/-- The bytes of an extension header. -/
def ExtHeader.length (ext : ExtHeader) : ℕ := 2 + ext.body.length

/-- The header of version 6, and those that extend it. -/
structure Ipv6Header where
  trafficClass : UInt8
  flowLabel : Fin (2 ^ 20)
  hopLimit : UInt8
  src : Fin (2 ^ 128)
  dst : Fin (2 ^ 128)
  exts : List ExtHeader
  length_exts : exts.length ≤ 8

/-- The number of the header that comes first. -/
def firstHeader (protoNum : ℕ) : List ExtHeader → ℕ
  | [] => protoNum
  | ext :: _ => ext.kind.number

/-- The bytes of extension headers, each of which names the next one. -/
def encodeExts (protoNum : ℕ) : List ExtHeader → List UInt8
  | [] => []
  | ext :: exts =>
    layout [(1, firstHeader protoNum exts), (1, ext.units.toNat)]
      ++ (ext.body ++ encodeExts protoNum exts)

inductive NetworkHeader
  | ipv4 (header : Ipv4Header)
  | ipv6 (header : Ipv6Header)

namespace NetworkHeader

def ethertype : NetworkHeader → ℕ
  | ipv4 _ => ethPIp
  | ipv6 _ => ethPIpv6

def version : NetworkHeader → ℕ
  | ipv4 _ => 4
  | ipv6 _ => 6

/-- The addresses as they are written. -/
def srcIp : NetworkHeader → String
  | ipv4 header => Ip.text header.src
  | ipv6 header => Ip6.str header.src

def dstIp : NetworkHeader → String
  | ipv4 header => Ip.text header.dst
  | ipv6 header => Ip6.str header.dst

/-- The time to live, or the hop limit. -/
def ttl : NetworkHeader → ℕ
  | ipv4 header => header.ttl.toNat
  | ipv6 header => header.hopLimit.toNat

/-- The identification, which version 6 does not have. -/
def ipId : NetworkHeader → ℕ
  | ipv4 header => header.id.toNat
  | ipv6 _ => 0

def exts : NetworkHeader → List ExtHeader
  | ipv4 _ => []
  | ipv6 header => header.exts

/-- The length of the extension headers. -/
def extsLen (network : NetworkHeader) : ℕ := (network.exts.map ExtHeader.length).sum

/-- The length that the header states, of a packet that carries so many bytes. -/
def lengthField (l4Len : ℕ) : NetworkHeader → ℕ
  | ipv4 header => 20 + 4 * header.options.words + l4Len
  | ipv6 header => (ipv6 header).extsLen + l4Len

/-- The bytes of the header, in front of what the packet carries. -/
def encode (protoNum : ℕ) (l4 : List UInt8) : NetworkHeader → List UInt8
  | ipv4 header =>
    layout [(1, 4 * 16 + (5 + header.options.words)), (1, header.tos.toNat),
      (2, (ipv4 header).lengthField l4.length), (2, header.id.toNat),
      (2, if header.dontFragment then 0x4000 else 0), (1, header.ttl.toNat), (1, protoNum),
      (2, header.checksum.toNat), (4, header.src), (4, header.dst)] ++ (header.options.bytes ++ l4)
  | ipv6 header =>
    layout [(4, 6 * 2 ^ 28 + header.trafficClass.toNat * 2 ^ 20 + header.flowLabel),
      (2, (ipv6 header).lengthField l4.length), (1, firstHeader protoNum header.exts),
      (1, header.hopLimit.toNat), (16, header.src), (16, header.dst)]
      ++ (encodeExts protoNum header.exts ++ l4)

end NetworkHeader

/-- How a packet is framed: with the addresses of the ends, perhaps a tag, and perhaps some bytes
    that fill the frame up; or not at all. -/
inductive Link
  | ethernet (dst src : Fin (2 ^ 48)) (tag : Option UInt16) (padding : List UInt8)
  | raw

namespace Link

def linktype : Link → ℕ
  | ethernet .. => linktypeEthernet
  | raw => linktypeRaw

/-- The frame around a packet. -/
def encode (ethertype : ℕ) (data : List UInt8) : Link → List UInt8
  | ethernet dst src none padding =>
    layout [(6, dst), (6, src), (2, ethertype)] ++ (data ++ padding)
  | ethernet dst src (some tag) padding =>
    layout [(6, dst), (6, src), (2, ethP8021q), (2, tag.toNat), (2, ethertype)] ++ (data ++ padding)
  | raw => data

end Link

/-- A packet whose lengths fit into its headers. -/
structure Packet where
  link : Link
  network : NetworkHeader
  transport : Transport
  payload : List UInt8
  length_lt : network.lengthField (transport.encode payload).length < 2 ^ 16

namespace Packet

variable {τ : Type} (p : Packet)

/-- The bytes of a packet. -/
def encode : List UInt8 :=
  p.link.encode p.network.ethertype
    (p.network.encode p.transport.protoNum (p.transport.encode p.payload))

/-- The packet is read as what it is: its addresses, its hops, its protocol, its ports or its
    identity, its identification and, where there are ports, the length of its payload. -/
structure ReadAs (pkt : ParsedPacket τ) : Prop where
  srcIp : pkt.srcIp = p.network.srcIp
  dstIp : pkt.dstIp = p.network.dstIp
  ttl : pkt.ttl = p.network.ttl
  proto : pkt.proto = p.transport.proto
  ports : (pkt.srcPort, pkt.dstPort) = p.transport.ports.getD (0, 0)
  icmpId : pkt.icmpId = p.transport.identity.map Prod.fst
  icmpSeq : pkt.icmpSeq = p.transport.identity.map Prod.snd
  ipId : pkt.ipId = p.network.ipId
  payloadLen : p.transport.ports ≠ none → pkt.payloadLen = p.payload.length

/-- The parser reads the packet as what it is. -/
def Reads (ts : τ) : Prop :=
  ∃ pkt, parseFrame p.encode p.link.linktype ts = .ok (some pkt) ∧ p.ReadAs pkt

end Packet

/-! ## What the parser reads -/

section Reads

variable {τ : Type} {ts : τ} {srcIp dstIp : String} {ttl ipId l4Len : ℕ}

/-- What the parser makes of a transport, where `l4Len` bytes are said to be left for it. -/
def Transport.parsed (ts : τ) (srcIp dstIp : String) (ttl ipId l4Len payloadLen : ℕ)
    (t : Transport) : ParsedPacket τ where
  ts := ts
  proto := t.proto
  srcIp := srcIp
  dstIp := dstIp
  ttl := ttl
  ipId := ipId
  srcPort := (t.ports.getD (0, 0)).1
  dstPort := (t.ports.getD (0, 0)).2
  icmpId := t.identity.map Prod.fst
  icmpSeq := t.identity.map Prod.snd
  tcpSeq := match t with
    | .tcp _ _ seq .. => some seq.toNat
    | _ => none
  tcpFlags := match t with
    | .tcp _ _ _ _ _ flags .. => some flags.toNat
    | _ => none
  payloadLen := match t with
    | .tcp _ _ _ _ _ _ _ _ _ options => l4Len - (5 + options.words) * 4
    | .udp .. => payloadLen
    | _ => l4Len

theorem parseL4_encode (t : Transport) {payload padding : List UInt8}
    (hlen : (t.encode payload).length < 2 ^ 16) :
    parseL4 t.protoNum (t.encode payload ++ padding) ts srcIp dstIp ttl ipId l4Len =
      .ok (some (t.parsed ts srcIp dstIp ttl ipId l4Len payload.length)) := by
  cases t with
  | icmp type code checksum id seq =>
    have hread : unpack .big [2, 2] (layout [(2, id.toNat), (2, seq.toNat)]) =
        .ok [id.toNat, seq.toNat] := unpack_layout _ (by simpa using ⟨id.toNat_lt, seq.toNat_lt⟩)
    rw [parseL4, if_pos ⟨rfl, by simp [Transport.encode, layout]; omega⟩]
    exact bind_eq_ok.2 ⟨_, hread, rfl⟩
  | icmpv6 type code checksum id seq =>
    have hread : unpack .big [2, 2] (layout [(2, id.toNat), (2, seq.toNat)]) =
        .ok [id.toNat, seq.toNat] := unpack_layout _ (by simpa using ⟨id.toNat_lt, seq.toNat_lt⟩)
    rw [parseL4, if_neg fun h => absurd (h.1 : ipprotoIcmpv6 = ipprotoIcmp) (by decide),
      if_pos ⟨rfl, by simp [Transport.encode, layout]; omega⟩]
    exact bind_eq_ok.2 ⟨_, hread, rfl⟩
  | tcp srcPort dstPort seq ack reserved flags window checksum urgent options =>
    have hports : unpack .big [2, 2] (layout [(2, srcPort.toNat), (2, dstPort.toNat)]) =
        .ok [srcPort.toNat, dstPort.toNat] :=
      unpack_layout _ (by simpa using ⟨srcPort.toNat_lt, dstPort.toNat_lt⟩)
    have hseq : unpackOne .big 4 (bytesOf 4 seq.toNat) = .ok seq.toNat :=
      unpackOne_bytesOf seq.toNat_lt
    -- The high half of the byte is the length of the header.
    have hoffset : (UInt8.ofNat ((5 + options.words) * 16 + reserved)).toNat >>> 4 =
        5 + options.words := by
      have := options.words_le
      have := reserved.isLt
      rw [UInt8.toNat_ofNat', Nat.shiftRight_eq_div_pow]
      omega
    have hflags : (UInt8.ofNat flags.toNat).toNat = flags.toNat := by rw [UInt8.ofNat_toNat]
    rw [parseL4, if_neg fun h => absurd (h.1 : ipprotoTcp = ipprotoIcmp) (by decide),
      if_neg fun h => absurd (h.1 : ipprotoTcp = ipprotoIcmpv6) (by decide),
      if_pos ⟨rfl, by simp [Transport.encode, layout]; omega⟩]
    refine bind_eq_ok.2 ⟨_, hports, bind_eq_ok.2 ⟨_, hseq, bind_eq_ok.2 ⟨_, rfl, ?_⟩⟩⟩
    refine bind_eq_ok.2 ⟨flags.toNat, congrArg Except.ok hflags, ?_⟩
    rw [hoffset]
    rfl
  | udp srcPort dstPort checksum =>
    have hlen' : 8 + payload.length < 2 ^ 16 := by
      simp only [Transport.encode, List.length_append] at hlen
      exact hlen
    have hread : unpack .big [2, 2, 2, 2] (layout [(2, srcPort.toNat), (2, dstPort.toNat),
        (2, 8 + payload.length), (2, checksum.toNat)]) =
        .ok [srcPort.toNat, dstPort.toNat, 8 + payload.length, checksum.toNat] :=
      unpack_layout _
        (by simpa using ⟨srcPort.toNat_lt, dstPort.toNat_lt, hlen', checksum.toNat_lt⟩)
    rw [parseL4, if_neg fun h => absurd (h.1 : ipprotoUdp = ipprotoIcmp) (by decide),
      if_neg fun h => absurd (h.1 : ipprotoUdp = ipprotoIcmpv6) (by decide),
      if_neg fun h => absurd (h.1 : ipprotoUdp = ipprotoTcp) (by decide),
      if_pos ⟨rfl, by simp [Transport.encode, layout]; omega⟩]
    refine bind_eq_ok.2 ⟨_, hread, ?_⟩
    show Except.ok (some _) = _
    rw [Nat.add_sub_cancel_left]
    rfl

theorem bind_of_eq_ok {α β : Type} {x : Except ReadError α} {a : α}
    {f : α → Except ReadError β} (h : x = .ok a) : (x >>= f) = f a := by
  rw [h]
  rfl

theorem ipv4Addr_bytesOf {a : ℕ} (_h : a < 2 ^ 32) : ipv4Addr (bytesOf 4 a) = Ip.text a := by
  have hbytes : (bytesOf 4 a).map UInt8.toNat = Ip.octets a := by
    simp only [bytesOf, List.nil_append, List.cons_append, List.map_cons, List.map_nil,
      UInt8.toNat_ofNat', Ip.octets]
    refine List.cons_eq_cons.2 ⟨by omega, List.cons_eq_cons.2 ⟨by omega, List.cons_eq_cons.2
      ⟨by omega, rfl⟩⟩⟩
  have htexts : (bytesOf 4 a).map (fun b => toString b.toNat) = (Ip.octets a).map toString := by
    rw [← hbytes, List.map_map]
    rfl
  rw [ipv4Addr, htexts]
  simp only [Ip.octets, List.map_cons, List.map_nil, Text.join, Ip.text, String.append_assoc]

theorem ipv6Addr_bytesOf {a : ℕ} (h : a < 2 ^ 128) : ipv6Addr (bytesOf 16 a) = .ok (Ip6.str a) := by
  rw [ipv6Addr, if_pos (length_bytesOf 16 a), value_bytesOf (by omega)]

theorem slice_between {front field rest : List UInt8} {i j : ℕ} (hi : front.length = i)
    (hj : j = i + field.length) : slice (front ++ (field ++ rest)) i j = field := by
  rw [slice, hj, ← hi, List.take_length_add_append, List.drop_left, List.take_left]

/-- The header of version 4 is left behind, with its options. -/
theorem parseIpv4_encode (header : Ipv4Header) {protoNum : ℕ} {l4 padding : List UInt8}
    (hproto : protoNum < 256)
    (hlen : (NetworkHeader.ipv4 header).lengthField l4.length < 2 ^ 16) :
    parseIpv4 ((NetworkHeader.ipv4 header).encode protoNum l4 ++ padding) ts =
      parseL4 protoNum (l4 ++ padding) ts (Ip.text header.src) (Ip.text header.dst)
        header.ttl.toNat header.id.toNat l4.length := by
  have hwords := header.options.words_le
  have hoptions := header.options.length_eq
  -- The low half of the first byte is the length of the header.
  have hihl : ((UInt8.ofNat (4 * 16 + (5 + header.options.words))).toNat &&& 0x0F) * 4 =
      20 + 4 * header.options.words := by
    rw [UInt8.toNat_ofNat', Nat.and_two_pow_sub_one_eq_mod _ 4]
    omega
  have htotal : unpackOne .big 2 (bytesOf 2 ((NetworkHeader.ipv4 header).lengthField l4.length)) =
      .ok (20 + 4 * header.options.words + l4.length) := unpackOne_bytesOf hlen
  have hid : unpackOne .big 2 (bytesOf 2 header.id.toNat) = .ok header.id.toNat :=
    unpackOne_bytesOf header.id.toNat_lt
  have httl : (UInt8.ofNat header.ttl.toNat).toNat = header.ttl.toNat := by rw [UInt8.ofNat_toNat]
  have hnum : (UInt8.ofNat protoNum).toNat = protoNum := UInt8.toNat_ofNat_of_lt' hproto
  rw [parseIpv4, if_neg (by simp [NetworkHeader.encode, layout]; omega)]
  refine (bind_of_eq_ok rfl).trans ?_
  simp only [hihl]
  rw [if_neg (by simp [NetworkHeader.encode, layout]; omega)]
  refine (bind_of_eq_ok htotal).trans ?_
  refine (bind_of_eq_ok hid).trans ?_
  refine (bind_of_eq_ok (congrArg Except.ok httl)).trans ?_
  refine (bind_of_eq_ok (congrArg Except.ok hnum)).trans ?_
  have hdrop : ((NetworkHeader.ipv4 header).encode protoNum l4 ++ padding).drop
      (20 + 4 * header.options.words) = l4 ++ padding := by
    rw [NetworkHeader.encode, List.append_assoc, List.append_assoc, ← List.append_assoc]
    exact List.drop_left' (by simp [layout, hoptions]; omega)
  rw [hdrop, Nat.add_sub_cancel_left]
  congr 1
  · exact ipv4Addr_bytesOf header.src.isLt
  · exact ipv4Addr_bytesOf header.dst.isLt

theorem byteAt_append {front rest : List UInt8} (i : ℕ) :
    byteAt (front ++ rest) (front.length + i) = byteAt rest i := by
  rw [byteAt, List.getElem?_append_right (Nat.le_add_right _ _), Nat.add_sub_cancel_left, byteAt]

theorem number_mem (kind : ExtKind) : kind.number ∈ ipv6ExtHeaders := by
  cases kind <;> decide

theorem firstHeader_lt {protoNum : ℕ} (h : protoNum < 256) (exts : List ExtHeader) :
    firstHeader protoNum exts < 256 := by
  have hnumber (kind : ExtKind) : kind.number < 256 := by cases kind <;> decide
  rcases exts with _ | ⟨ext, _⟩
  · exact h
  · exact hnumber ext.kind

theorem length_encodeExts (protoNum : ℕ) (exts : List ExtHeader) :
    (encodeExts protoNum exts).length = (exts.map ExtHeader.length).sum := by
  induction exts with
  | nil => rfl
  | cons ext exts ih =>
    simp [encodeExts, layout, ih, ExtHeader.length]
    omega

/-- The extension headers are left behind, up to the last one. -/
theorem skipExtHeaders_encode {protoNum : ℕ} (hproto : protoNum ∉ ipv6ExtHeaders)
    (hproto' : protoNum < 256) (exts : List ExtHeader) (front rest : List UInt8) {guard : ℕ}
    (hguard : exts.length ≤ guard) :
    skipExtHeaders (front ++ (encodeExts protoNum exts ++ rest)) guard (firstHeader protoNum exts)
        front.length =
      .ok (protoNum, front.length + (exts.map ExtHeader.length).sum) := by
  induction exts generalizing front guard with
  | nil =>
    cases guard with
    | zero => rfl
    | succ guard =>
      rw [skipExtHeaders, if_neg fun h => hproto h.1]
      rfl
  | cons ext exts ih =>
    obtain ⟨guard, rfl⟩ := Nat.exists_eq_succ_of_ne_zero (Nat.ne_zero_of_lt hguard)
    have hbody := ext.length_body
    have hunits : (UInt8.ofNat ext.units.toNat).toNat = ext.units.toNat := by
      rw [UInt8.ofNat_toNat]
    have hnum : (UInt8.ofNat (firstHeader protoNum exts)).toNat = firstHeader protoNum exts :=
      UInt8.toNat_ofNat_of_lt' (firstHeader_lt hproto' exts)
    rw [skipExtHeaders, if_pos ⟨number_mem ext.kind, by simp [encodeExts, layout]; omega⟩]
    have hat : byteAt (encodeExts protoNum (ext :: exts) ++ rest) 1 = .ok ext.units.toNat :=
      congrArg Except.ok hunits
    have hat' : byteAt (encodeExts protoNum (ext :: exts) ++ rest) 0 =
      .ok (firstHeader protoNum exts) := congrArg Except.ok hnum
    refine (bind_of_eq_ok ((byteAt_append 1).trans hat)).trans ?_
    refine (bind_of_eq_ok ((byteAt_append 0).trans hat')).trans ?_
    -- The rest of the headers, behind this one.
    have hdata : front ++ (encodeExts protoNum (ext :: exts) ++ rest) =
        (front ++ (layout [(1, firstHeader protoNum exts), (1, ext.units.toNat)] ++ ext.body)) ++
          (encodeExts protoNum exts ++ rest) := by
      simp [encodeExts]
    have hoffset : front.length + (ext.units.toNat + 1) * 8 =
        (front ++ (layout [(1, firstHeader protoNum exts), (1, ext.units.toNat)] ++
          ext.body)).length := by
      simp [layout, hbody]
      omega
    rw [hdata, hoffset, ih _ (Nat.le_of_succ_le_succ hguard)]
    simp [layout, ExtHeader.length]
    omega

/-- The headers of version 6 are left behind, which the length is not told. -/
theorem parseIpv6_encode (header : Ipv6Header) {protoNum : ℕ} {l4 padding : List UInt8}
    (hproto : protoNum ∉ ipv6ExtHeaders) (hproto' : protoNum < 256)
    (hlen : (NetworkHeader.ipv6 header).lengthField l4.length < 2 ^ 16) :
    parseIpv6 ((NetworkHeader.ipv6 header).encode protoNum l4 ++ padding) ts =
      parseL4 protoNum (l4 ++ padding) ts (Ip6.str header.src) (Ip6.str header.dst)
        header.hopLimit.toNat 0 ((NetworkHeader.ipv6 header).lengthField l4.length) := by
  have hlength : unpackOne .big 2 (bytesOf 2 ((NetworkHeader.ipv6 header).lengthField l4.length)) =
      .ok ((NetworkHeader.ipv6 header).lengthField l4.length) := unpackOne_bytesOf hlen
  have hfirst : (UInt8.ofNat (firstHeader protoNum header.exts)).toNat =
      firstHeader protoNum header.exts := UInt8.toNat_ofNat_of_lt' (firstHeader_lt hproto' _)
  have hhops : (UInt8.ofNat header.hopLimit.toNat).toNat = header.hopLimit.toNat := by
    rw [UInt8.ofNat_toNat]
  -- The addresses lie behind fields of fixed length.
  have hsrc : ipv6Addr (slice ((NetworkHeader.ipv6 header).encode protoNum l4 ++ padding) 8 24) =
      .ok (Ip6.str header.src) := by
    have hdata : (NetworkHeader.ipv6 header).encode protoNum l4 ++ padding =
        layout [(4, 6 * 2 ^ 28 + header.trafficClass.toNat * 2 ^ 20 + header.flowLabel),
          (2, (NetworkHeader.ipv6 header).lengthField l4.length),
          (1, firstHeader protoNum header.exts), (1, header.hopLimit.toNat)] ++
        (bytesOf 16 header.src ++ (bytesOf 16 header.dst ++
          (encodeExts protoNum header.exts ++ (l4 ++ padding)))) := by
      simp [NetworkHeader.encode, layout]
    rw [hdata, slice_between (by simp [layout]) (by simp), ipv6Addr_bytesOf header.src.isLt]
  have hdst : ipv6Addr (slice ((NetworkHeader.ipv6 header).encode protoNum l4 ++ padding) 24 40) =
      .ok (Ip6.str header.dst) := by
    have hdata : (NetworkHeader.ipv6 header).encode protoNum l4 ++ padding =
        layout [(4, 6 * 2 ^ 28 + header.trafficClass.toNat * 2 ^ 20 + header.flowLabel),
          (2, (NetworkHeader.ipv6 header).lengthField l4.length),
          (1, firstHeader protoNum header.exts), (1, header.hopLimit.toNat), (16, header.src)] ++
        (bytesOf 16 header.dst ++ (encodeExts protoNum header.exts ++ (l4 ++ padding))) := by
      simp [NetworkHeader.encode, layout]
    rw [hdata, slice_between (by simp [layout]) (by simp), ipv6Addr_bytesOf header.dst.isLt]
  rw [parseIpv6, if_neg (by simp [NetworkHeader.encode, layout]; omega)]
  refine (bind_of_eq_ok hlength).trans ?_
  refine (bind_of_eq_ok (congrArg Except.ok hfirst)).trans ?_
  refine (bind_of_eq_ok (congrArg Except.ok hhops)).trans ?_
  refine (bind_of_eq_ok hsrc).trans ((bind_of_eq_ok hdst).trans ?_)
  -- What follows the header starts with the extension headers.
  obtain ⟨front, hfront, hdata⟩ : ∃ front : List UInt8, front.length = 40 ∧
      (NetworkHeader.ipv6 header).encode protoNum l4 =
        front ++ (encodeExts protoNum header.exts ++ l4) := ⟨_, length_layout _, rfl⟩
  have hskip := skipExtHeaders_encode hproto hproto' header.exts front (l4 ++ padding)
    header.length_exts
  rw [hfront] at hskip
  rw [hdata, List.append_assoc, List.append_assoc]
  refine (bind_of_eq_ok hskip).trans ?_
  show parseL4 _ (List.drop _ _) _ _ _ _ _ _ = _
  rw [← length_encodeExts protoNum, ← hfront, ← List.append_assoc, ← List.length_append,
    List.drop_left]

theorem extsLen_eq_zero_iff {network : NetworkHeader} :
    network.extsLen = 0 ↔ network.exts = [] := by
  rw [NetworkHeader.extsLen]
  rcases network.exts with _ | ⟨ext, exts⟩
  · simp
  · simp [ExtHeader.length]

/-- The high half of the first byte is the version. -/
theorem NetworkHeader.version_encode (network : NetworkHeader) (protoNum : ℕ) (l4 : List UInt8) :
    ∃ first, byteAt (network.encode protoNum l4) 0 = .ok first ∧ first >>> 4 = network.version := by
  rcases network with header | header
  · refine ⟨_, rfl, ?_⟩
    have := header.options.words_le
    rw [UInt8.toNat_ofNat', Nat.shiftRight_eq_div_pow, version]
    omega
  · refine ⟨_, rfl, ?_⟩
    have := header.trafficClass.toNat_lt
    have := header.flowLabel.isLt
    rw [UInt8.toNat_ofNat', Nat.shiftRight_eq_div_pow, version]
    omega

/-- The bytes that fill the frame up. -/
def Link.padding : Link → List UInt8
  | ethernet _ _ _ padding => padding
  | raw => []

theorem framePayload_encode (link : Link) (network : NetworkHeader) (protoNum : ℕ)
    (l4 : List UInt8) :
    framePayload (link.encode network.ethertype (network.encode protoNum l4)) link.linktype =
      .ok (some (network.ethertype, network.encode protoNum l4 ++ link.padding)) := by
  have htype : network.ethertype < 256 ^ 2 ∧ network.ethertype ≠ ethP8021q := by
    rcases network with _ | _
    · show ethPIp < 256 ^ 2 ∧ ethPIp ≠ ethP8021q
      decide
    · show ethPIpv6 < 256 ^ 2 ∧ ethPIpv6 ≠ ethP8021q
      decide
  match link with
  | .ethernet dst src none padding =>
    show framePayload _ linktypeEthernet = _
    rw [framePayload, if_pos rfl, if_neg (by simp [Link.encode, layout]; omega)]
    refine (bind_of_eq_ok (unpackOne_bytesOf htype.1)).trans ?_
    rw [if_neg htype.2]
    rfl
  | .ethernet dst src (some tag) padding =>
    have htag : unpackOne .big 2 (bytesOf 2 ethP8021q) = .ok ethP8021q :=
      unpackOne_bytesOf (by decide)
    show framePayload _ linktypeEthernet = _
    rw [framePayload, if_pos rfl, if_neg (by simp [Link.encode, layout]; omega)]
    refine (bind_of_eq_ok htag).trans ?_
    rw [if_pos rfl, if_neg (by simp [Link.encode, layout]; omega)]
    exact bind_of_eq_ok (unpackOne_bytesOf htype.1)
  | .raw =>
    obtain ⟨first, hfirst, hversion⟩ := network.version_encode protoNum l4
    have hne : network.encode protoNum l4 ≠ [] := by
      intro h
      rw [h] at hfirst
      exact absurd hfirst (by simp [byteAt])
    show framePayload (network.encode protoNum l4) linktypeRaw = _
    rw [framePayload, if_neg (by decide), if_pos rfl, if_neg hne]
    refine (bind_of_eq_ok hfirst).trans ?_
    rw [hversion, Link.padding, List.append_nil]
    rcases network with header | header <;> rfl

namespace Packet

variable (p : Packet)

/-- What the parser makes of a packet: it does not tell the extension headers from what follows. -/
def parsed (ts : τ) : ParsedPacket τ :=
  p.transport.parsed ts p.network.srcIp p.network.dstIp p.network.ttl p.network.ipId
    (p.network.extsLen + (p.transport.encode p.payload).length) p.payload.length

theorem parseFrame_encode (ts : τ) :
    parseFrame p.encode p.link.linktype ts = .ok (some (p.parsed ts)) := by
  have hproto : p.transport.protoNum ∉ ipv6ExtHeaders ∧ p.transport.protoNum < 256 := by
    have h : ∀ n ∈ [ipprotoIcmp, ipprotoIcmpv6, ipprotoTcp, ipprotoUdp],
        n ∉ ipv6ExtHeaders ∧ n < 256 := by decide
    exact h _ (by cases p.transport <;> simp [Transport.protoNum])
  have hlen := p.length_lt
  have hlen' : (p.transport.encode p.payload).length < 2 ^ 16 := by
    refine lt_of_le_of_lt ?_ hlen
    cases p.network <;> exact Nat.le_add_left _ _
  refine (bind_of_eq_ok (framePayload_encode p.link p.network _ _)).trans ?_
  rw [Packet.parsed]
  cases hnetwork : p.network with
  | ipv4 header =>
    rw [hnetwork] at hlen
    refine (if_pos rfl).trans ?_
    have hexts : (NetworkHeader.ipv4 header).extsLen = 0 := rfl
    rw [parseIpv4_encode header hproto.2 hlen, parseL4_encode p.transport hlen', hexts,
      Nat.zero_add]
    rfl
  | ipv6 header =>
    rw [hnetwork] at hlen
    refine (if_neg fun h => absurd (h : ethPIpv6 = ethPIp) (by decide)).trans ((if_pos rfl).trans ?_)
    rw [parseIpv6_encode header hproto.1 hproto.2 hlen, parseL4_encode p.transport hlen']
    rfl

theorem readAs_parsed_iff (ts : τ) : p.ReadAs (p.parsed ts) ↔
    (p.transport.ports ≠ none → (p.parsed ts).payloadLen = p.payload.length) :=
  ⟨ReadAs.payloadLen, fun h => ⟨rfl, rfl, rfl, rfl, rfl, rfl, rfl, rfl, h⟩⟩

theorem reads_iff_readAs (ts : τ) : p.Reads ts ↔ p.ReadAs (p.parsed ts) := by
  rw [Reads, parseFrame_encode]
  constructor
  · rintro ⟨pkt, hpkt, h⟩
    obtain rfl := Option.some.inj (Except.ok.inj hpkt)
    exact h
  · exact fun h => ⟨_, rfl, h⟩

/-- The packet is read as what it is unless it is a TCP segment behind extension headers. -/
theorem reads_iff (ts : τ) : p.Reads ts ↔ ¬(p.network.exts ≠ [] ∧ p.transport.isTcp = true) := by
  rw [reads_iff_readAs, readAs_parsed_iff, parsed]
  cases p.transport with
  | icmp | icmpv6 => simp [Transport.ports, Transport.isTcp]
  | udp => simp [Transport.isTcp, Transport.parsed]
  | tcp srcPort dstPort seq ack reserved flags window checksum urgent options =>
    have hlength : (Transport.encode p.payload (.tcp srcPort dstPort seq ack reserved flags window
        checksum urgent options)).length = (5 + options.words) * 4 + p.payload.length := by
      rw [Transport.encode, List.length_append, List.length_append, length_layout,
        options.length_eq, ← Nat.add_assoc]
      simp
      omega
    -- What is said to be left for the segment is too much by the extension headers.
    have hleft : p.network.extsLen + ((5 + options.words) * 4 + p.payload.length) -
        (5 + options.words) * 4 = p.network.extsLen + p.payload.length := by
      omega
    simp [Transport.isTcp, Transport.parsed, Transport.ports, hlength, hleft, extsLen_eq_zero_iff]

/-- A segment behind one extension header, which is taken for a part of the payload. -/
def hopByHopTcp : Packet where
  link := .raw
  network := .ipv6
    { trafficClass := 0, flowLabel := 0, hopLimit := 64, src := 1, dst := 2
      exts := [{ kind := .hopByHop, units := 0, body := [0, 0, 0, 0, 0, 0], length_body := rfl }]
      length_exts := by decide }
  transport := .tcp 443 50000 1 1 0 0x10 1024 0 0 ⟨[], 0, rfl, by decide⟩
  payload := [0x68, 0x69]
  length_lt := by decide

theorem not_reads_hopByHopTcp : ¬hopByHopTcp.Reads () := by
  rw [reads_iff_readAs, readAs_parsed_iff]
  exact fun h => absurd (h (by decide)) (by decide)

end Packet

end Reads

end Dnlab.PcapParse
