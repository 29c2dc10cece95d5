import Dnlab.Lib.Stream
import Dnlab.Services.PcapParse

/-!
# A capture in pieces

No read of the parsers is outside the bytes at hand (`parseFrame_succeeds`), and
the records of a capture are those of a stream that is cut as `recordFraming`
says. So the incremental parser has at every moment returned the packets of what
it was fed, and has kept what is left (`HasRead`), whatever the pieces were.
-/

namespace Dnlab.PcapParse

open ExceptRules (Succeeds)

/-! ## Reads that succeed -/

section Reads

variable {data raw : List UInt8} {endian : Endian} {i j : ℕ}

theorem byteAt_succeeds (h : i < data.length) : Succeeds (byteAt data i) := by
  rw [byteAt, List.getElem?_eq_getElem h]
  exact .pure _

theorem length_slice : (slice data i j).length = min j data.length - i := by
  rw [slice, List.length_drop, List.length_take]

theorem length_slice_of_le (h : j ≤ data.length) : (slice data i j).length = j - i := by
  rw [length_slice, min_eq_left h]

theorem unpack_eq {widths : List ℕ} (h : raw.length = widths.sum) :
    unpack endian widths raw = .ok (endian.values widths raw) :=
  if_pos h

theorem unpackOne_eq {width : ℕ} (h : raw.length = width) :
    unpackOne endian width raw = .ok (endian.value raw) := by
  rw [unpackOne, unpack_eq (by simpa using h)]
  show (.ok (endian.value (raw.take width)) : Except ReadError ℕ) = _
  rw [List.take_of_length_le h.le]

theorem unpackOne_succeeds {width : ℕ} (h : raw.length = width) :
    Succeeds (unpackOne endian width raw) :=
  ⟨_, unpackOne_eq h⟩

/-- Numbers that are read together. -/
theorem succeeds_of_unpack {α : Type} {widths : List ℕ} {f : List ℕ → Except ReadError α}
    (h : raw.length = widths.sum) (hf : Succeeds (f (endian.values widths raw))) :
    Succeeds (unpack endian widths raw >>= f) := by
  rw [unpack_eq h]
  exact hf

theorem readMagic_succeeds (h : raw.length = 4) : Succeeds (readMagic raw) := by
  refine .bind (unpackOne_succeeds h) fun magic _ => .ite (fun _ => .pure _) fun _ => ?_
  exact .bind (unpackOne_succeeds h) fun magicBe _ => .ite (fun _ => .pure _) fun _ => .pure _

end Reads

section Frame

variable {τ : Type} {ts : τ} {data frame l4 : List UInt8} {linktype : ℕ}

theorem parseL4_succeeds {protoNum ttl ipId payloadLen : ℕ} {srcIp dstIp : String} :
    Succeeds (parseL4 protoNum l4 ts srcIp dstIp ttl ipId payloadLen) := by
  have hslice : ∀ {i j : ℕ}, j ≤ l4.length → (slice l4 i j).length = j - i := length_slice_of_le
  refine .ite (fun h => ?_) fun _ => .ite (fun h => ?_) fun _ => .ite (fun h => ?_) fun _ =>
    .ite (fun h => ?_) fun _ => .pure _
  · exact succeeds_of_unpack (hslice h.2) (.pure _)
  · exact succeeds_of_unpack (hslice h.2) (.pure _)
  · refine succeeds_of_unpack (hslice (by omega)) (.bind (unpackOne_succeeds ?_) fun _ _ => ?_)
    · exact hslice (by omega)
    · refine .bind (byteAt_succeeds (by omega)) fun _ _ => ?_
      exact .bind (byteAt_succeeds (by omega)) fun _ _ => .pure _
  · exact succeeds_of_unpack (hslice h.2) (.pure _)

theorem parseIpv4_succeeds : Succeeds (parseIpv4 data ts) := by
  refine .ite (fun _ => .pure _) fun h => .bind (byteAt_succeeds (by omega)) fun first _ => ?_
  refine .ite (fun _ => .pure _) fun _ => ?_
  refine .bind (unpackOne_succeeds (length_slice_of_le (by omega))) fun _ _ => ?_
  refine .bind (unpackOne_succeeds (length_slice_of_le (by omega))) fun _ _ => ?_
  refine .bind (byteAt_succeeds (by omega)) fun _ _ => ?_
  exact .bind (byteAt_succeeds (by omega)) fun _ _ => parseL4_succeeds

theorem skipExtHeaders_succeeds {guard nextHeader offset : ℕ} :
    Succeeds (skipExtHeaders data guard nextHeader offset) := by
  induction guard generalizing nextHeader offset with
  | zero => exact .pure _
  | succ guard ih =>
    refine .ite (fun h => .bind (byteAt_succeeds (by omega)) fun _ _ => ?_) fun _ => .pure _
    exact .bind (byteAt_succeeds (by omega)) fun _ _ => ih

theorem ipv6Addr_succeeds (h : data.length = 16) : Succeeds (ipv6Addr data) :=
  .ite (fun _ => .pure _) fun hne => absurd h hne

theorem parseIpv6_succeeds : Succeeds (parseIpv6 data ts) := by
  refine .ite (fun _ => .pure _) fun h => ?_
  refine .bind (unpackOne_succeeds (length_slice_of_le (by omega))) fun _ _ => ?_
  refine .bind (byteAt_succeeds (by omega)) fun _ _ => ?_
  refine .bind (byteAt_succeeds (by omega)) fun _ _ => ?_
  refine .bind (ipv6Addr_succeeds (length_slice_of_le (by omega))) fun _ _ => ?_
  refine .bind (ipv6Addr_succeeds (length_slice_of_le (by omega))) fun _ _ => ?_
  exact .bind skipExtHeaders_succeeds fun ⟨_, _⟩ _ => parseL4_succeeds

theorem framePayload_succeeds : Succeeds (framePayload frame linktype) := by
  refine .ite (fun _ => .ite (fun _ => .pure _) fun h => ?_) fun _ =>
    .ite (fun _ => .ite (fun _ => .pure _) fun h => ?_) fun _ => .pure _
  · refine .bind (unpackOne_succeeds (length_slice_of_le (by omega))) fun _ _ => ?_
    refine .ite (fun _ => .ite (fun _ => .pure _) fun h' => ?_) fun _ => .pure _
    exact .bind (unpackOne_succeeds (length_slice_of_le (by omega))) fun _ _ => .pure _
  · exact .bind (byteAt_succeeds (List.length_pos_iff.2 h)) fun _ _ => .pure _

/-- Whatever the bytes of a frame are, no read is outside them. -/
theorem parseFrame_succeeds : Succeeds (parseFrame frame linktype ts) := by
  refine .bind framePayload_succeeds fun r _ => ?_
  rcases r with _ | ⟨ethertype, payload⟩
  · exact .pure _
  · refine .ite (fun _ => parseIpv4_succeeds) fun _ => .ite (fun _ => parseIpv6_succeeds) fun _ => ?_
    exact .pure _

/-- A ping. -/
example : parseFrame [0x45, 0, 0, 28, 0, 1, 0, 0, 64, 1, 0, 0, 10, 0, 0, 1, 10, 0, 0, 2, 8, 0, 0, 0,
      0, 7, 0, 9] 101 () = .ok (some
        { ts := (), proto := "icmp", srcIp := "10.0.0.1", dstIp := "10.0.0.2", ttl := 64, ipId := 1
          icmpId := some 7, icmpSeq := some 9, payloadLen := 8 }) := by decide

end Frame

/-! ## Records -/

/-- The times and the frame of a record. -/
structure Record where
  sec : ℕ
  frac : ℕ
  frame : List UInt8

/-- The first record, if all of it is there. -/
def nextRecord (endian : Endian) (l : List UInt8) : Option (Record × List UInt8) :=
  if l.length < 16 then none
  else
    let caplen := endian.value (slice l 8 12)
    if l.length < 16 + caplen then none
    else some (⟨endian.value (slice l 0 4), endian.value (slice l 4 8), slice l 16 (16 + caplen)⟩,
      l.drop (16 + caplen))

theorem slice_append {l m : List UInt8} {i j : ℕ} (h : j ≤ l.length) :
    slice (l ++ m) i j = slice l i j := by
  rw [slice, List.take_append_of_le_length h, slice]

theorem slice_slice {l : List UInt8} {i j k k' : ℕ} (h : i + k' ≤ j) :
    slice (slice l i j) k k' = slice l (i + k) (i + k') := by
  simp only [slice, List.take_drop, List.drop_drop, List.take_take]
  rw [min_eq_left h]

theorem nextRecord_eq_some {endian : Endian} {l rest : List UInt8} {r : Record} :
    nextRecord endian l = some (r, rest) ↔ 16 + endian.value (slice l 8 12) ≤ l.length ∧
      (⟨endian.value (slice l 0 4), endian.value (slice l 4 8),
        slice l 16 (16 + endian.value (slice l 8 12))⟩ : Record) = r ∧
      l.drop (16 + endian.value (slice l 8 12)) = rest := by
  rw [nextRecord]
  dsimp only
  split_ifs with h h'
  · simp only [false_iff]
    omega
  · simp only [false_iff]
    omega
  · rw [Option.some.injEq, Prod.mk.injEq]
    exact ⟨fun h => ⟨by omega, h⟩, And.right⟩

/-- A capture is a stream of records. -/
def recordFraming (endian : Endian) : Framing UInt8 Record where
  next := nextRecord endian
  length_lt h := by
    obtain ⟨hle, -, rfl⟩ := nextRecord_eq_some.1 h
    rw [List.length_drop]
    omega
  append h m := by
    obtain ⟨hle, rfl, rfl⟩ := nextRecord_eq_some.1 h
    rw [nextRecord_eq_some]
    rw [slice_append (i := 8) (by omega), slice_append (i := 0) (by omega),
      slice_append (i := 4) (by omega), slice_append hle, List.drop_append_of_le_length hle,
      List.length_append]
    exact ⟨by omega, rfl, rfl⟩

section Records

variable {τ : Type} {stamp : (sec frac : ℕ) → (nanos : Bool) → τ} {endian : Endian} {nanos : Bool}
  {linktype : ℕ}

/-- The packet of a record, if it is one that is known. -/
def packetOf (stamp : (sec frac : ℕ) → (nanos : Bool) → τ) (nanos : Bool) (linktype : ℕ)
    (r : Record) : Option (ParsedPacket τ) :=
  (parseFrame r.frame linktype (stamp r.sec r.frac nanos)).toOption.join

theorem parseFrame_eq (r : Record) : parseFrame r.frame linktype (stamp r.sec r.frac nanos) =
    .ok (packetOf stamp nanos linktype r) := by
  obtain ⟨pkt, h⟩ : Succeeds (parseFrame r.frame linktype (stamp r.sec r.frac nanos)) :=
    parseFrame_succeeds
  rw [packetOf, h]
  rfl

/-- The packets of a stream. -/
def packetsOf (stamp : (sec frac : ℕ) → (nanos : Bool) → τ) (endian : Endian) (nanos : Bool)
    (linktype : ℕ) (l : List UInt8) : List (ParsedPacket τ) :=
  ((recordFraming endian).split l).1.filterMap (packetOf stamp nanos linktype)

/-- The four numbers before a frame. -/
theorem unpack_recordHeader {buf : List UInt8} {i : ℕ} (h : i + 16 ≤ buf.length) :
    unpack endian [4, 4, 4, 4] (slice buf i (i + 16)) =
      .ok [endian.value (slice buf i (i + 4)), endian.value (slice buf (i + 4) (i + 8)),
        endian.value (slice buf (i + 8) (i + 12)), endian.value (slice buf (i + 12) (i + 16))] := by
  rw [unpack_eq ((length_slice_of_le h).trans (Nat.add_sub_cancel_left i 16))]
  have hvalues : ∀ raw : List UInt8, endian.values [4, 4, 4, 4] raw =
      [endian.value (slice raw 0 4), endian.value (slice raw 4 8), endian.value (slice raw 8 12),
        endian.value (slice raw 12 16)] := fun raw => by
    simp only [Endian.values, slice, List.drop_zero, List.drop_drop, List.drop_take]
  rw [hvalues, slice_slice (by omega), slice_slice (by omega), slice_slice (by omega),
    slice_slice (by omega)]
  rfl

theorem packetsOf_of_none {l : List UInt8} (h : nextRecord endian l = none) :
    packetsOf stamp endian nanos linktype l = [] := by
  rw [packetsOf, Framing.split_of_none h]
  rfl

theorem packetsOf_of_some {l rest : List UInt8} {r : Record}
    (h : nextRecord endian l = some (r, rest)) : packetsOf stamp endian nanos linktype l =
      (packetOf stamp nanos linktype r).toList ++ packetsOf stamp endian nanos linktype rest := by
  rw [packetsOf, Framing.split_of_some h, List.filterMap_cons, packetsOf]
  cases packetOf stamp nanos linktype r <;> rfl

/-- The buffer is cut into records. -/
theorem takeRecords_eq (buf : List UInt8) : takeRecords stamp endian nanos linktype buf =
    .ok (packetsOf stamp endian nanos linktype buf, ((recordFraming endian).split buf).2) := by
  induction h : buf.length using Nat.strong_induction_on generalizing buf with
  | _ n ih =>
    subst h
    have hnone : nextRecord endian buf = none → (Except.ok ([], buf) : Except ReadError _) =
        .ok (packetsOf stamp endian nanos linktype buf, ((recordFraming endian).split buf).2) :=
      fun h => by rw [packetsOf_of_none h, Framing.split_of_none h]
    rw [takeRecords]
    split_ifs with h16
    · rw [unpack_recordHeader (i := 0) (by omega)]
      show (if buf.length < 16 + endian.value (slice buf 8 12) then _ else _) = _
      split_ifs with hcap
      · exact hnone (by rw [nextRecord, if_neg (by omega), if_pos hcap])
      · have hnext : nextRecord endian buf = some (⟨_, _, _⟩, _) :=
          nextRecord_eq_some.2 ⟨by omega, rfl, rfl⟩
        have hlt := (recordFraming endian).length_lt hnext
        have hframe := @parseFrame_eq _ stamp nanos linktype
          ⟨endian.value (slice buf 0 4), endian.value (slice buf 4 8), slice buf 16
            (16 + endian.value (slice buf 8 12))⟩
        rw [hframe]
        show (takeRecords stamp endian nanos linktype _ >>= fun p => _) = _
        rw [ih _ hlt _ rfl, packetsOf_of_some hnext,
          Framing.split_of_some (F := recordFraming endian) (l := buf) hnext]
        rfl
    · exact hnone (by rw [nextRecord, if_pos (by omega)])

/-- The parser of a whole capture walks over the same records. -/
theorem parseRecords_eq (data : List UInt8) (offset : ℕ) :
    parseRecords stamp data endian nanos linktype offset =
      .ok (packetsOf stamp endian nanos linktype (data.drop offset)) := by
  induction h : data.length - offset using Nat.strong_induction_on generalizing offset with
  | _ n ih =>
    subst h
    -- Reading at the offset is reading at the start of what follows it.
    have hslice : ∀ i j, slice (data.drop offset) i j = slice data (offset + i) (offset + j) := by
      intro i j
      simp only [slice, List.take_drop, List.drop_drop]
    have hlen : (data.drop offset).length = data.length - offset := List.length_drop
    rw [parseRecords]
    split_ifs with h16
    · rw [unpack_recordHeader h16]
      show (if offset + 16 + endian.value (slice data (offset + 8) (offset + 12)) > data.length
        then _ else _) = _
      split_ifs with hcap
      · rw [packetsOf_of_none]
        · rfl
        · rw [nextRecord, if_neg (by omega), if_pos (by rw [hslice]; omega)]
      · have hnext : nextRecord endian (data.drop offset) = some (⟨_, _, _⟩, _) :=
          nextRecord_eq_some.2 ⟨by rw [hslice]; omega, rfl, rfl⟩
        rw [packetsOf_of_some hnext]
        simp only [hslice, Nat.add_zero, List.drop_drop]
        have hframe := @parseFrame_eq _ stamp nanos linktype
          ⟨endian.value (slice data offset (offset + 4)),
            endian.value (slice data (offset + 4) (offset + 8)), slice data (offset + 16)
              (offset + 16 + endian.value (slice data (offset + 8) (offset + 12)))⟩
        rw [hframe]
        show (parseRecords stamp data endian nanos linktype _ >>= fun p => _) = _
        rw [ih _ (by omega) _ rfl, Nat.add_assoc]
        rfl
    · rw [packetsOf_of_none]
      · rfl
      · rw [nextRecord, if_pos (by omega)]

end Records

/-! ## The incremental parser -/

section Feed

variable {τ : Type} {stamp : (sec frac : ℕ) → (nanos : Bool) → τ} {data : List UInt8}
  {packets : List (ParsedPacket τ)} {p : IncrementalPcapParser}

/-- What the parser has returned, and its state, when it was fed `data`. -/
inductive HasRead (stamp : (sec frac : ℕ) → (nanos : Bool) → τ) (data : List UInt8) :
    List (ParsedPacket τ) → IncrementalPcapParser → Prop
  | header (h : data.length < 24) : HasRead stamp data [] { buf := data }
  | invalid (h : 24 ≤ data.length) (hmagic : readMagic (slice data 0 4) = .ok none) :
    HasRead stamp data [] { invalid := true }
  | ready {endian : Endian} {nanos : Bool} {linktype : ℕ} (h : 24 ≤ data.length)
    (hmagic : readMagic (slice data 0 4) = .ok (some (endian, nanos)))
    (hlinktype : unpackOne endian 4 (slice data 20 24) = .ok linktype) :
    HasRead stamp data (packetsOf stamp endian nanos linktype (data.drop 24))
      { buf := ((recordFraming endian).split (data.drop 24)).2, endian, nanos, linktype
        ready := true }

/-- What has been returned is what the other parser returns for the whole. -/
theorem HasRead.parsePcap_eq (h : HasRead stamp data packets p) :
    parsePcap stamp data = .ok packets := by
  rw [parsePcap]
  cases h with
  | header h => rw [if_pos h]; rfl
  | invalid h hmagic => rw [if_neg (by omega), hmagic]; rfl
  | @ready endian nanos linktype h hmagic hlinktype =>
    rw [if_neg (by omega), hmagic]
    show (unpackOne endian 4 (slice data 20 24) >>= _) = _
    rw [hlinktype]
    exact parseRecords_eq data 24

/-- One more piece is read as it comes. -/
theorem HasRead.feed (h : HasRead stamp data packets p) (chunk : List UInt8) :
    ∃ new p', p.feed stamp chunk = .ok (new, p') ∧
      HasRead stamp (data ++ chunk) (packets ++ new) p' := by
  by_cases hchunk : chunk = []
  · subst hchunk
    refine ⟨[], p, if_pos (.inr rfl), ?_⟩
    rwa [List.append_nil, List.append_nil]
  have hlen : (data ++ chunk).length = data.length + chunk.length := List.length_append
  cases h with
  | invalid h hmagic =>
    refine ⟨[], _, if_pos (.inl rfl), .invalid (by omega) ?_⟩
    rwa [slice_append (by omega)]
  | @ready endian nanos linktype h hmagic hlinktype =>
    -- The records of the rest and the piece are the next ones of the whole.
    have hready := @HasRead.ready _ stamp (data ++ chunk) endian nanos linktype (by omega)
      (by rwa [slice_append (by omega)]) (by rwa [slice_append (by omega)])
    rw [packetsOf, List.drop_append_of_le_length h, Framing.split_append, List.filterMap_append]
      at hready
    refine ⟨_, _, ?_, hready⟩
    rw [IncrementalPcapParser.feed, if_neg (by simpa using hchunk)]
    show (takeRecords stamp endian nanos linktype _ >>= _) = _
    rw [takeRecords_eq]
    rfl
  | header h =>
    rw [IncrementalPcapParser.feed, if_neg (by simpa using hchunk)]
    simp only [List.nil_append]
    by_cases hshort : (data ++ chunk).length < 24
    · refine ⟨[], _, ?_, .header hshort⟩
      show ((if (data ++ chunk).length < 24 then _ else _) >>= _) = _
      rw [if_pos hshort]
      rfl
    -- The header is complete now.
    obtain ⟨magic, hmagic⟩ : Succeeds (readMagic (slice (data ++ chunk) 0 4)) :=
      readMagic_succeeds (length_slice_of_le (by omega))
    rcases magic with _ | ⟨endian, nanos⟩
    · refine ⟨[], _, ?_, .invalid (by omega) hmagic⟩
      show ((if (data ++ chunk).length < 24 then _
        else readMagic (slice (data ++ chunk) 0 4) >>= _) >>= _) = _
      rw [if_neg hshort, hmagic]
      rfl
    · have hlinktype : unpackOne endian 4 (slice (data ++ chunk) 20 24) =
          .ok (endian.value (slice (data ++ chunk) 20 24)) :=
        unpackOne_eq (length_slice_of_le (by omega))
      refine ⟨_, _, ?_, .ready (by omega) hmagic hlinktype⟩
      show ((if (data ++ chunk).length < 24 then _
        else readMagic (slice (data ++ chunk) 0 4) >>= _) >>= _) = _
      rw [if_neg hshort, hmagic]
      show ((unpackOne endian 4 (slice (data ++ chunk) 20 24) >>= _) >>= _) = _
      rw [hlinktype]
      show (takeRecords stamp endian nanos _ _ >>= _) = _
      rw [takeRecords_eq]
      rfl

/-- The pieces of a capture are read one after the other. -/
theorem HasRead.feedAll (h : HasRead stamp data packets p) (chunks : List (List UInt8)) :
    ∃ new p', p.feedAll stamp chunks = .ok (new, p') ∧
      HasRead stamp (data ++ chunks.flatten) (packets ++ new) p' := by
  induction chunks generalizing data packets p with
  | nil => exact ⟨[], p, rfl, by rwa [List.flatten_nil, List.append_nil, List.append_nil]⟩
  | cons chunk chunks ih =>
    obtain ⟨new, p₁, hfeed, h₁⟩ := h.feed chunk
    obtain ⟨more, p₂, hall, h₂⟩ := ih h₁
    refine ⟨new ++ more, p₂, ?_, by rwa [List.flatten_cons, ← List.append_assoc, ← List.append_assoc]⟩
    rw [IncrementalPcapParser.feedAll, hfeed]
    show (p₁.feedAll stamp chunks >>= _) = _
    rw [hall]
    rfl

/-- However a capture is cut into pieces, the incremental parser returns over them what the other one
    returns for the whole, and no read of either is outside the bytes at hand. -/
theorem feedAll_eq_parsePcap (stamp : (sec frac : ℕ) → (nanos : Bool) → τ)
    (chunks : List (List UInt8)) : ∃ packets p,
      IncrementalPcapParser.feedAll stamp {} chunks = .ok (packets, p) ∧
        parsePcap stamp chunks.flatten = .ok packets := by
  have hstart : HasRead stamp [] [] {} := .header (by simp)
  obtain ⟨packets, p, hfeed, h⟩ := hstart.feedAll chunks
  exact ⟨packets, p, hfeed, h.parsePcap_eq⟩

end Feed

end Dnlab.PcapParse
