import Dnlab.Lib.Ip6
import Dnlab.Lib.Except

/-!
# Captured packets

The two parsers of captures after `services/pcap_parse.py`: one of a whole
capture, and one that is fed it piece by piece. They read of every packet what
identifies it, and skip what they do not know. A read outside the bytes at hand
is an exception, as is a number from too few of them.
-/

namespace Dnlab.PcapParse

/-- The exceptions of a read. -/
inductive ReadError
  /-- `IndexError`. -/
  | index
  /-- `struct.error`. -/
  | struct
  /-- `AddressValueError`. -/
  | address
  deriving DecidableEq

/-! ## Bytes -/

/-- `data[i]`. -/
def byteAt (data : List UInt8) (i : ℕ) : Except ReadError ℕ :=
  match data[i]? with
  | some b => .ok b.toNat
  | none => .error .index

/-- `data[i:j]`. -/
def slice (data : List UInt8) (i j : ℕ) : List UInt8 := (data.take j).drop i

/-- The order of the bytes of a number, `""`, `"<"` or `">"`: the first is that of the machine, which
    has the low byte first. -/
inductive Endian
  | native | little | big
  deriving DecidableEq

/-- The number that bytes stand for. -/
def Endian.value : Endian → List UInt8 → ℕ
  | .big, raw => raw.foldl (fun n b => n * 256 + b.toNat) 0
  | _, raw => raw.foldr (fun b n => b.toNat + n * 256) 0

/-- The numbers of the given widths that bytes stand for. -/
def Endian.values (endian : Endian) : (widths : List ℕ) → List UInt8 → List ℕ
  | [], _ => []
  | width :: widths, raw =>
    endian.value (raw.take width) :: endian.values widths (raw.drop width)

/-- `struct.unpack`, of numbers of the given widths. -/
def unpack (endian : Endian) (widths : List ℕ) (raw : List UInt8) : Except ReadError (List ℕ) :=
  if raw.length = widths.sum then .ok (endian.values widths raw) else .error .struct

/-- `struct.unpack(...)[0]`, of one number. -/
def unpackOne (endian : Endian) (width : ℕ) (raw : List UInt8) : Except ReadError ℕ := do
  let [n] ← unpack endian [width] raw | .error .struct
  pure n

/-! ## One frame -/

/-- What is read of a packet. Its time is a float, which nothing here looks into. -/
structure ParsedPacket (τ : Type) where
  ts : τ
  proto : String
  srcIp : String
  dstIp : String
  ttl : ℕ
  ipId : ℕ
  srcPort : ℕ := 0
  dstPort : ℕ := 0
  icmpId : Option ℕ := none
  icmpSeq : Option ℕ := none
  tcpSeq : Option ℕ := none
  tcpFlags : Option ℕ := none
  payloadLen : ℕ := 0
  deriving DecidableEq

def linktypeEthernet : ℕ := 1
def linktypeRaw : ℕ := 101
def ethPIp : ℕ := 0x0800
def ethPIpv6 : ℕ := 0x86DD
def ethP8021q : ℕ := 0x8100
def ipprotoIcmp : ℕ := 1
def ipprotoTcp : ℕ := 6
def ipprotoUdp : ℕ := 17
def ipprotoIcmpv6 : ℕ := 58

/-- The headers between that of version 6 and that of the transport. -/
def ipv6ExtHeaders : List ℕ := [0, 43, 44, 60]

/-- `_ipv4_addr(raw)`. -/
def ipv4Addr (raw : List UInt8) : String := Text.join "." (raw.map fun b => toString b.toNat)

/-- `_ipv6_addr(raw)`. -/
def ipv6Addr (raw : List UInt8) : Except ReadError String :=
  if raw.length = 16 then .ok (Ip6.str (Endian.big.value raw)) else .error .address

section Frame

variable {τ : Type}

/-- `_parse_l4`. A difference below zero is zero. -/
def parseL4 (protoNum : ℕ) (l4 : List UInt8) (ts : τ) (srcIp dstIp : String)
    (ttl ipId payloadLen : ℕ) : Except ReadError (Option (ParsedPacket τ)) :=
  if protoNum = ipprotoIcmp ∧ 8 ≤ l4.length then do
    let [icmpId, icmpSeq] ← unpack .big [2, 2] (slice l4 4 8) | .error .struct
    pure (some
      { ts, proto := "icmp", srcIp, dstIp, ttl, ipId
        icmpId := some icmpId, icmpSeq := some icmpSeq, payloadLen })
  else if protoNum = ipprotoIcmpv6 ∧ 8 ≤ l4.length then do
    let [icmpId, icmpSeq] ← unpack .big [2, 2] (slice l4 4 8) | .error .struct
    pure (some
      { ts, proto := "icmp6", srcIp, dstIp, ttl, ipId
        icmpId := some icmpId, icmpSeq := some icmpSeq, payloadLen })
  else if protoNum = ipprotoTcp ∧ 20 ≤ l4.length then do
    let [srcPort, dstPort] ← unpack .big [2, 2] (slice l4 0 4) | .error .struct
    let tcpSeq ← unpackOne .big 4 (slice l4 4 8)
    let offset ← byteAt l4 12
    let dataOffset := (offset >>> 4) * 4
    let flags ← byteAt l4 13
    pure (some
      { ts, proto := "tcp", srcIp, dstIp, ttl, ipId, srcPort, dstPort
        tcpSeq := some tcpSeq, tcpFlags := some flags, payloadLen := payloadLen - dataOffset })
  else if protoNum = ipprotoUdp ∧ 8 ≤ l4.length then do
    let [srcPort, dstPort, udpLen, _] ← unpack .big [2, 2, 2, 2] (slice l4 0 8) | .error .struct
    pure (some
      { ts, proto := "udp", srcIp, dstIp, ttl, ipId, srcPort, dstPort, payloadLen := udpLen - 8 })
  else pure none

/-- `_parse_ipv4(data, ts)`. -/
def parseIpv4 (data : List UInt8) (ts : τ) : Except ReadError (Option (ParsedPacket τ)) :=
  if data.length < 20 then pure none
  else do
    let first ← byteAt data 0
    let ihl := (first &&& 0x0F) * 4
    if ihl < 20 ∨ data.length < ihl then pure none
    else do
      let totalLen ← unpackOne .big 2 (slice data 2 4)
      let ipId ← unpackOne .big 2 (slice data 4 6)
      let ttl ← byteAt data 8
      let protoNum ← byteAt data 9
      let srcIp := ipv4Addr (slice data 12 16)
      let dstIp := ipv4Addr (slice data 16 20)
      parseL4 protoNum (data.drop ihl) ts srcIp dstIp ttl ipId (totalLen - ihl)

/-- The transport and where its header starts, after at most `guard` more extension headers. -/
def skipExtHeaders (data : List UInt8) : (guard nextHeader offset : ℕ) → Except ReadError (ℕ × ℕ)
  | 0, nextHeader, offset => pure (nextHeader, offset)
  | guard + 1, nextHeader, offset =>
    if nextHeader ∈ ipv6ExtHeaders ∧ offset + 2 ≤ data.length then do
      let len ← byteAt data (offset + 1)
      let extLen := (len + 1) * 8
      let nextHeader ← byteAt data offset
      skipExtHeaders data guard nextHeader (offset + extLen)
    else pure (nextHeader, offset)

/-- `_parse_ipv6(data, ts)`. -/
def parseIpv6 (data : List UInt8) (ts : τ) : Except ReadError (Option (ParsedPacket τ)) :=
  if data.length < 40 then pure none
  else do
    let payloadLen ← unpackOne .big 2 (slice data 4 6)
    let nextHeader ← byteAt data 6
    let hopLimit ← byteAt data 7
    let srcIp ← ipv6Addr (slice data 8 24)
    let dstIp ← ipv6Addr (slice data 24 40)
    let (nextHeader, offset) ← skipExtHeaders data 8 nextHeader 40
    parseL4 nextHeader (data.drop offset) ts srcIp dstIp hopLimit 0 payloadLen

/-- The type and the payload of an Ethernet frame, which may be tagged, or of a raw one. -/
def framePayload (frame : List UInt8) (linktype : ℕ) :
    Except ReadError (Option (ℕ × List UInt8)) :=
  if linktype = linktypeEthernet then
    if frame.length < 14 then pure none
    else do
      let ethertype ← unpackOne .big 2 (slice frame 12 14)
      let payload := frame.drop 14
      if ethertype = ethP8021q then
        if payload.length < 4 then pure none
        else do
          let ethertype ← unpackOne .big 2 (slice payload 2 4)
          pure (some (ethertype, payload.drop 4))
      else pure (some (ethertype, payload))
  else if linktype = linktypeRaw then
    if frame = [] then pure none
    else do
      let first ← byteAt frame 0
      let version := first >>> 4
      pure (some (if version = 4 then ethPIp else ethPIpv6, frame))
  else pure none

/-- `_parse_frame(frame, linktype, ts)`. -/
def parseFrame (frame : List UInt8) (linktype : ℕ) (ts : τ) :
    Except ReadError (Option (ParsedPacket τ)) := do
  match ← framePayload frame linktype with
  | none => pure none
  | some (ethertype, payload) =>
    if ethertype = ethPIp then parseIpv4 payload ts
    else if ethertype = ethPIpv6 then parseIpv6 payload ts
    else pure none

end Frame

/-! ## The parsers -/

def pcapMagicUsec : ℕ := 0xA1B2C3D4
def pcapMagicNsec : ℕ := 0xA1B23C4D

/-- The order of the bytes and whether times are in nanoseconds, from the first four bytes. -/
def readMagic (raw : List UInt8) : Except ReadError (Option (Endian × Bool)) := do
  let magic ← unpackOne .little 4 raw
  if magic = pcapMagicUsec ∨ magic = pcapMagicNsec then
    pure (some (.little, magic = pcapMagicNsec))
  else do
    let magicBe ← unpackOne .big 4 raw
    if magicBe ≠ pcapMagicUsec ∧ magicBe ≠ pcapMagicNsec then pure none
    else pure (some (.big, magicBe = pcapMagicNsec))

section Parsers

variable {τ : Type} (stamp : (sec frac : ℕ) → (nanos : Bool) → τ)

/-- The records of `parse_pcap` from an offset on. -/
def parseRecords (data : List UInt8) (endian : Endian) (nanos : Bool) (linktype offset : ℕ) :
    Except ReadError (List (ParsedPacket τ)) :=
  if _h : offset + 16 ≤ data.length then do
    let [tsSec, tsFrac, caplen, _] ← unpack endian [4, 4, 4, 4] (slice data offset (offset + 16))
      | .error .struct
    if offset + 16 + caplen > data.length then pure []
    else do
      let frame := slice data (offset + 16) (offset + 16 + caplen)
      let pkt ← parseFrame frame linktype (stamp tsSec tsFrac nanos)
      let packets ← parseRecords data endian nanos linktype (offset + 16 + caplen)
      pure (pkt.toList ++ packets)
  else pure []
termination_by data.length - offset

/-- `parse_pcap(data)`. -/
def parsePcap (data : List UInt8) : Except ReadError (List (ParsedPacket τ)) :=
  if data.length < 24 then pure []
  else do
    match ← readMagic (slice data 0 4) with
    | none => pure []
    | some (endian, nanos) => do
      let linktype ← unpackOne endian 4 (slice data 20 24)
      parseRecords stamp data endian nanos linktype 24

/-- `IncrementalPcapParser`. -/
structure IncrementalPcapParser where
  buf : List UInt8 := []
  endian : Endian := .native
  nanos : Bool := false
  linktype : ℕ := 0
  ready : Bool := false
  invalid : Bool := false
  deriving DecidableEq

/-- The records that are complete in the buffer, and what is left of it. -/
def takeRecords (endian : Endian) (nanos : Bool) (linktype : ℕ) (buf : List UInt8) :
    Except ReadError (List (ParsedPacket τ) × List UInt8) :=
  if _h : 16 ≤ buf.length then do
    let [tsSec, tsFrac, caplen, _] ← unpack endian [4, 4, 4, 4] (slice buf 0 16) | .error .struct
    if buf.length < 16 + caplen then pure ([], buf)
    else do
      let frame := slice buf 16 (16 + caplen)
      let pkt ← parseFrame frame linktype (stamp tsSec tsFrac nanos)
      let (packets, rest) ← takeRecords endian nanos linktype (buf.drop (16 + caplen))
      pure (pkt.toList ++ packets, rest)
  else pure ([], buf)
termination_by buf.length

namespace IncrementalPcapParser

variable (p : IncrementalPcapParser)

/-- Read the header, if it is there and has not been read: `none` when it is not there yet. -/
def readHeader : Except ReadError (Option IncrementalPcapParser) :=
  if p.ready then pure (some p)
  else if p.buf.length < 24 then pure none
  else do
    match ← readMagic (slice p.buf 0 4) with
    | none => pure (some { p with invalid := true, buf := [] })
    | some (endian, nanos) => do
      let linktype ← unpackOne endian 4 (slice p.buf 20 24)
      pure (some { p with endian, nanos, linktype, buf := p.buf.drop 24, ready := true })

/-- `feed(data)`: the packets that it completes. -/
def feed (data : List UInt8) : Except ReadError (List (ParsedPacket τ) × IncrementalPcapParser) :=
  if p.invalid ∨ data = [] then pure ([], p)
  else do
    let p := { p with buf := p.buf ++ data }
    match ← p.readHeader with
    | none => pure ([], p)
    | some p =>
      if p.invalid then pure ([], p)
      else do
        let (packets, buf) ← takeRecords stamp p.endian p.nanos p.linktype p.buf
        pure (packets, { p with buf })

/-- What the parser returns over chunks, and its state then. -/
def feedAll : (p : IncrementalPcapParser) → List (List UInt8) →
    Except ReadError (List (ParsedPacket τ) × IncrementalPcapParser)
  | p, [] => pure ([], p)
  | p, data :: chunks => do
    let (packets, p) ← p.feed stamp data
    let (more, p) ← p.feedAll chunks
    pure (packets ++ more, p)

end IncrementalPcapParser

end Parsers

end Dnlab.PcapParse
