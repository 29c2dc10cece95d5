import Dnlab.ImageBuild.Patches

/-!
# Patches are made in full, once

What the transforms promise (`AllOrNothing`): a text to which a transform was not applied
is not changed, one to which it was applied is not changed again, and every statement that
was substituted is where it was on its line. Which texts they keep it for is said by
`Transform.Fits` (`all_or_nothing_iff`).
-/

namespace Dnlab.ImageBuild

open Occurrence
open Text (lineStart lineRest linesKeep isSpace isLineEnd lineStart_append lineStart_append_end
  lineStart_append_of_end)

/-- A statement is where it was on its line, with the rest of that line or as the end of it. -/
structure Substituted.InPlace (s : Substituted) : Prop where
  start : lineStart s.new.before = lineStart s.old.before
  rest : lineRest s.new.after = lineRest s.old.after ∨ lineRest s.new.after = []

/-- A transform keeps what it promises for a text. -/
structure AllOrNothing (patch : List Char → Patched) (text : List Char) : Prop where
  nothing : (patch text).applied = false → (patch text).text = text
  again : (patch text).applied = true →
    (patch (patch text).text).applied = true ∧ (patch (patch text).text).text = (patch text).text
  inPlace : (patch text).applied = true → ∀ s ∈ (patch text).made, s.InPlace

/-- Where a pattern first occurs, this is before it on the line. -/
def StartsWith (p start text : List Char) : Prop :=
  ∀ a b, firstIn p text = some (a, b) → lineStart a = start

/-- What is before the first occurrence of either pattern. -/
def firstOfEither (p q text : List Char) : Option (List Char) :=
  match firstIn p text, firstIn q text with
  | some (a, _), some (a', _) => some (if a.length ≤ a'.length then a else a')
  | some (a, _), none => some a
  | none, some (a', _) => some a'
  | none, none => none

/-- The three transforms. -/
inductive Transform
  | persistOverlay | optionalMgmtIpv6 | warmLinks

namespace Transform

def patch : Transform → List Char → Patched
  | .persistOverlay => patchPersistOverlay
  | .optionalMgmtIpv6 => patchOptionalMgmtIpv6
  | .warmLinks => patchWarmLinks

/-- The texts for which a transform keeps what it promises: it has left its marker, or finds nothing
    to do, or finds all that it needs, where it expects it. -/
def Fits : Transform → List Char → Prop
  | .persistOverlay, text =>
    provenanceMarker <:+: text ∨
      ∀ line, (linesKeep text).find? hasOverlayAnchor = some line → line.getLast? = some '\n'
  | .optionalMgmtIpv6, text =>
    optionalIpv6Marker <:+: text ∨
      (¬optionalIp.anchor <:+: text ∧ ¬optionalGw.anchor <:+: text) ∨
      ∃ a, firstOfEither optionalIp.anchor optionalIp.replacement text = some a ∧
        lineStart a = "        ".toList
  | .warmLinks, text =>
    warmLinkMarker <:+: text ∨ ¬delay.anchor <:+: text ∨ ¬qemuBroken.statement <:+: text ∨
      (qemu.anchor <:+: text ∧ qemuBroken.anchor <:+: text ∧ StartsWith delay.anchor [] text ∧
        StartsWith qemu.anchor [] text)

end Transform

/-! ## Substitutions -/

namespace Substitution

variable {σ : Substitution} {text a b p start : List Char}

theorem apply_of_firstIn (h : firstIn σ.anchor text = some (a, b)) :
    σ.apply text = a ++ σ.newBlock ++ (σ.trail ++ b) := by
  rw [apply, replaceFirst_of_firstIn h]
  simp

theorem apply_of_absent (h : ¬σ.anchor <:+: text) : σ.apply text = text :=
  replaceFirst_of_absent h

theorem eq_of_firstIn (h : firstIn σ.anchor text = some (a, b)) :
    text = a ++ σ.oldBlock ++ (σ.trail ++ b) := by
  rw [Occurrence.eq_of_firstIn h, anchor]
  simp

variable (σ) in
/-- The new statement makes the text longer. -/
def Longer : Prop := σ.oldBlock.length < σ.newBlock.length

instance : Decidable σ.Longer := inferInstanceAs (Decidable (_ < _))

theorem Longer.anchor (h : σ.Longer) : σ.anchor.length < (σ.newBlock ++ σ.trail).length := by
  rw [Substitution.anchor, List.length_append, List.length_append]
  exact Nat.add_lt_add_right h _

theorem Longer.length_lt (h : σ.Longer) (hmem : σ.anchor <:+: text) :
    text.length < (σ.apply text).length :=
  length_lt_replaceFirst hmem h.anchor

theorem Longer.length_le (h : σ.Longer) (text : List Char) :
    text.length ≤ (σ.apply text).length :=
  length_le_replaceFirst h.anchor

/-- What occurs in a text is not changed by a substitution it is clear of. -/
theorem infix_apply (h : Clear p σ.oldBlock) (h' : Clear p σ.newBlock) :
    p <:+: σ.apply text ↔ p <:+: text := by
  by_cases hmem : σ.anchor <:+: text
  · obtain ⟨a, b, hfirst, _⟩ := exists_firstIn hmem
    rw [apply_of_firstIn hfirst, h'.infix_iff]
    conv_rhs => rw [eq_of_firstIn hfirst, h.infix_iff]
  · rw [apply_of_absent hmem]

/-- A block with something on its last line that is not in the start of a line. -/
theorem lineStart_block {m z : List Char} (hm : ∃ c ∈ lineStart m, c ∉ start)
    (hz : ∀ d ∈ z, isLineEnd d = false) : lineStart (a ++ m ++ z) ≠ start := by
  obtain ⟨c, hc, hnot⟩ := hm
  rintro rfl
  refine hnot ?_
  rw [lineStart_append hz]
  exact List.mem_append_left _ (Text.mem_lineStart_append hc)

/-- Nor is where it first occurs on its line. -/
theorem startsWith_apply (h : Clear p σ.oldBlock) (h' : Clear p σ.newBlock)
    (hold : ∃ c ∈ lineStart σ.oldBlock, c ∉ start) (hnew : ∃ c ∈ lineStart σ.newBlock, c ∉ start) :
    StartsWith p start (σ.apply text) ↔ StartsWith p start text := by
  by_cases hmem : σ.anchor <:+: text
  · obtain ⟨a, b, hfirst, _⟩ := exists_firstIn hmem
    rw [apply_of_firstIn hfirst]
    conv_rhs => rw [eq_of_firstIn hfirst]
    -- The text `p` is before the block that is replaced, or after it.
    by_cases hp : p <:+: a
    · obtain ⟨x, y, hx, _⟩ := exists_firstIn hp
      simp only [StartsWith, List.append_assoc, firstIn_append hx, Option.some.injEq, Prod.mk.injEq]
      constructor
      · rintro hall _ _ ⟨rfl, _⟩
        exact hall _ _ ⟨rfl, rfl⟩
      · rintro hall _ _ ⟨rfl, _⟩
        exact hall _ _ ⟨rfl, rfl⟩
    · simp only [StartsWith, h.firstIn_after hp, h'.firstIn_after hp]
      rcases firstIn p (σ.trail ++ b) with _ | ⟨z, w⟩
      · exact iff_of_true (fun _ _ hnone => by cases hnone) fun _ _ hnone => by cases hnone
      · simp only [Option.map_some, Option.some.injEq, Prod.mk.injEq]
        have hiff : lineStart (a ++ σ.newBlock ++ z) = start ↔
            lineStart (a ++ σ.oldBlock ++ z) = start := by
          by_cases hz : ∀ d ∈ z, isLineEnd d = false
          · exact iff_of_false (lineStart_block hnew hz) (lineStart_block hold hz)
          · rw [lineStart_append_of_end hz, lineStart_append_of_end hz]
        constructor
        · rintro hall _ _ ⟨rfl, _⟩
          exact hiff.1 (hall _ _ ⟨rfl, rfl⟩)
        · rintro hall _ _ ⟨rfl, _⟩
          exact hiff.2 (hall _ _ ⟨rfl, rfl⟩)
  · rw [apply_of_absent hmem]

/-- What is after the statement stays. -/
theorem inPlace_made_iff : (∀ s ∈ σ.made text, s.InPlace) ↔
    ∀ a b, firstIn σ.anchor text = some (a, b) →
      lineStart (a ++ σ.inserted) = lineStart (a ++ σ.lead) := by
  rw [made]
  rcases hfirst : firstIn σ.anchor text with _ | ⟨a, b⟩
  · exact iff_of_true (List.forall_mem_nil _) fun _ _ hnone => by cases hnone
  · simp only [List.forall_mem_singleton, Option.some.injEq, Prod.mk.injEq]
    constructor
    · rintro hplace _ _ ⟨rfl, _⟩
      exact hplace.start
    · exact fun hall => ⟨hall a b ⟨rfl, rfl⟩, .inl rfl⟩

end Substitution

/-! ## Transforms with a marker -/

/-- A transform that leaves a text with its marker, and makes any other one longer, is not applied
    again just when it leaves its marker. -/
theorem again_iff {patch : List Char → Patched} {marker : List Char} (text : List Char)
    (hmarked : ∀ t, marker <:+: t → patch t = ⟨t, true, []⟩)
    (hlonger : ∀ t, ¬marker <:+: t → (patch t).applied = true → t.length < (patch t).text.length) :
    ((patch (patch text).text).applied = true ∧
      (patch (patch text).text).text = (patch text).text) ↔ marker <:+: (patch text).text := by
  constructor
  · rintro ⟨happlied, hsame⟩
    by_contra hnot
    have hlt := hlonger _ hnot happlied
    rw [hsame] at hlt
    exact Nat.lt_irrefl _ hlt
  · intro h
    rw [hmarked _ h]
    exact ⟨rfl, rfl⟩

theorem allOrNothing_of_marked {patch : List Char → Patched} {text : List Char}
    (h : patch text = ⟨text, true, []⟩) : AllOrNothing patch text where
  nothing hnot := by rw [h] at hnot; cases hnot
  again _ := by rw [h, h]; exact ⟨rfl, rfl⟩
  inPlace _ := by rw [h]; exact List.forall_mem_nil _

theorem allOrNothing_of_unchanged {patch : List Char → Patched} {text : List Char}
    {made : List Substituted} (h : patch text = ⟨text, false, made⟩) : AllOrNothing patch text where
  nothing _ := by rw [h]
  again happlied := by rw [h] at happlied; cases happlied
  inPlace happlied := by rw [h] at happlied; cases happlied

/-! ## The overlay of the disk -/

theorem patchPersistOverlay_of_marked {text : List Char} (h : provenanceMarker <:+: text) :
    patchPersistOverlay text = ⟨text, true, []⟩ := if_pos h

theorem overlayLines_eq (text before : List Char) (lines : List (List Char)) :
    (lines.find? hasOverlayAnchor = none ∧ overlayLines text before lines = ⟨text, false, []⟩) ∨
      ∃ pre line post, lines = pre ++ line :: post ∧ lines.find? hasOverlayAnchor = some line ∧
        hasOverlayAnchor line ∧
        overlayLines text before lines = overlayAt (before ++ pre.flatten) line post.flatten := by
  induction lines generalizing before with
  | nil => exact .inl ⟨rfl, rfl⟩
  | cons line lines ih =>
    rw [overlayLines]
    by_cases hanchor : hasOverlayAnchor line
    · refine .inr ⟨[], line, lines, rfl, List.find?_cons_of_pos hanchor, hanchor, ?_⟩
      rw [if_pos hanchor, List.flatten_nil, List.append_nil]
    · rw [if_neg hanchor, List.find?_cons_of_neg hanchor]
      rcases ih (before ++ line) with hnone | ⟨pre, found, post, rfl, hfind, hfound, heq⟩
      · exact .inl hnone
      · refine .inr ⟨line :: pre, found, post, rfl, hfind, hfound, ?_⟩
        rw [heq, List.flatten_cons, List.append_assoc]

/-- The marker is in the text that was patched. -/
theorem marker_infix_overlayAt (before line after : List Char) :
    provenanceMarker <:+: (overlayAt before line after).text := by
  refine ⟨before ++ line.takeWhile isSpace, (if line.getLast? = some '\n' then ['\n'] else []) ++
    line.takeWhile isSpace ++ overlayReplacement ++
    (if line.getLast? = some '\n' then ['\n'] else []) ++ after, ?_⟩
  simp [overlayAt]

/-- There is no end of a line before the anchor. -/
theorem indent_of_hasOverlayAnchor {text line : List Char} (hline : line ∈ linesKeep text)
    (h : hasOverlayAnchor line) : ∀ d ∈ line.takeWhile isSpace, isLineEnd d = false := by
  intro d hd
  by_contra hend
  obtain ⟨x, y, hindent⟩ := List.append_of_mem hd
  have hsplit : line = x ++ d :: (y ++ line.dropWhile isSpace) := by
    conv_lhs => rw [← List.takeWhile_append_dropWhile (p := isSpace) (l := line), hindent]
    rw [List.append_assoc, List.cons_append]
  have hlength : overlayAnchor.length ≤ (line.dropWhile isSpace).length :=
    (List.isPrefixOf_iff_prefix.1 h).length_le
  have htwo : 2 ≤ overlayAnchor.length := by
    unfold overlayAnchor
    rewrite [String.toList_ofList]
    decide
  rw [hsplit] at hline
  rcases Text.eq_of_mem_linesFrom (List.forall_mem_nil _) hline (Bool.not_eq_false _ ▸ hend) with
    hnil | hnl
  · have := congrArg List.length hnil
    simp only [List.length_append, List.length_nil] at this
    omega
  · have := congrArg List.length hnl
    simp only [List.length_append, List.length_singleton] at this
    omega

theorem isLineEnd_of_all {l : List Char} (h : l.all (fun d => !isLineEnd d) = true) :
    ∀ d ∈ l, isLineEnd d = false := by
  intro d hd
  have hnot := List.all_eq_true.1 h d hd
  rwa [Bool.not_eq_true'] at hnot

theorem exists_isLineEnd_of_any {l : List Char} (h : l.any isLineEnd = true) :
    ¬∀ d ∈ l, isLineEnd d = false := by
  obtain ⟨d, hd, hend⟩ := List.any_eq_true.1 h
  exact fun hall => Bool.false_ne_true ((hall d hd).symm.trans hend)

/-- The new statement is on its line if that ends as the code expects it. -/
theorem inPlace_overlayAt_iff {before line : List Char} (after : List Char)
    (hbefore : lineStart before = [])
    (hindent : ∀ d ∈ line.takeWhile isSpace, isLineEnd d = false) :
    (∀ s ∈ (overlayAt before line after).made, s.InPlace) ↔ line.getLast? = some '\n' := by
  rw [overlayAt, List.forall_mem_singleton]
  constructor
  · intro hplace
    by_contra hlast
    have hstart := hplace.start
    have hmarker : ∀ d ∈ line.takeWhile isSpace ++ provenanceMarker ++ line.takeWhile isSpace,
        isLineEnd d = false := by
      intro d hd
      rcases List.mem_append.1 hd with hd | hd
      · rcases List.mem_append.1 hd with hd | hd
        · exact hindent d hd
        · exact isLineEnd_of_all (by decide) d hd
      · exact hindent d hd
    simp only [if_neg hlast, List.append_nil] at hstart
    rw [lineStart_append hmarker, lineStart_append hindent, hbefore] at hstart
    have hlength := congrArg List.length hstart
    have hpos : 0 < provenanceMarker.length := by decide
    simp only [List.nil_append, List.length_append] at hlength
    omega
  · intro hlast
    simp only [if_pos hlast]
    refine ⟨?_, .inr rfl⟩
    rw [lineStart_append hindent, hbefore, List.nil_append, List.append_assoc, List.append_assoc,
      List.singleton_append, ← List.append_assoc, ← List.append_assoc,
      lineStart_append_end rfl hindent]

theorem persistOverlay_iff (text : List Char) :
    AllOrNothing patchPersistOverlay text ↔ Transform.Fits .persistOverlay text := by
  rw [Transform.Fits]
  by_cases hmarker : provenanceMarker <:+: text
  · exact iff_of_true (allOrNothing_of_marked (patchPersistOverlay_of_marked hmarker)) (.inl hmarker)
  · have hpatch : patchPersistOverlay text = overlayLines text [] (linesKeep text) := if_neg hmarker
    rw [or_iff_right hmarker]
    rcases overlayLines_eq text [] (linesKeep text) with
      ⟨hnone, heq⟩ | ⟨pre, line, post, hlines, hfind, hanchor, heq⟩
    · refine iff_of_true (allOrNothing_of_unchanged (hpatch.trans heq)) fun line hline => ?_
      rw [hnone] at hline
      cases hline
    · rw [List.nil_append] at heq
      have hagain := patchPersistOverlay_of_marked
        (marker_infix_overlayAt pre.flatten line post.flatten)
      have hplace := inPlace_overlayAt_iff post.flatten (Text.lineStart_of_linesKeep hlines)
        (indent_of_hasOverlayAnchor (hlines ▸ List.mem_append_right _ List.mem_cons_self) hanchor)
      rw [hfind]
      -- The patch is applied, so what counts is where it stands.
      constructor
      · intro h line' hline'
        obtain rfl := Option.some.inj hline'
        have hinPlace := h.inPlace (by rw [hpatch, heq]; rfl)
        rw [hpatch, heq] at hinPlace
        exact hplace.1 hinPlace
      · intro h
        refine ⟨fun hnot => ?_, fun _ => ?_, fun _ => ?_⟩
        · rw [hpatch, heq] at hnot
          cases hnot
        · rw [hpatch, heq, hagain]
          exact ⟨rfl, rfl⟩
        · rw [hpatch, heq]
          exact hplace.2 (h line rfl)

/-! ## Addresses of version 6 -/

theorem patchOptionalMgmtIpv6_of_marked {text : List Char} (h : optionalIpv6Marker <:+: text) :
    patchOptionalMgmtIpv6 text = ⟨text, true, []⟩ := if_pos h

/-- The statement with the address, in its new form. -/
abbrev newIp : List Char := optionalIp.replacement

theorem anchor_markIpv6 : markIpv6.anchor = newIp := by
  rw [Substitution.anchor, Substitution.oldBlock, markIpv6, List.nil_append, List.append_nil]

-- In what follows the literals are taken apart before the lists are compared.

theorem longer_optional (placeholder value : List Char) : (optional placeholder value).Longer := by
  have hshort : (")".toList).length < (" or \"\")".toList).length := by
    rewrite [String.toList_ofList, String.toList_ofList]
    decide
  simp only [Substitution.Longer, Substitution.oldBlock, Substitution.newBlock, optional,
    List.nil_append, List.length_append]
  omega

theorem longer_optionalIp : optionalIp.Longer := longer_optional _ _

theorem longer_optionalGw : optionalGw.Longer := longer_optional _ _

theorem longer_markIpv6 : markIpv6.Longer := by
  have hmarker : 0 < markIpv6.inserted.length := by
    unfold markIpv6 optionalIpv6Marker
    rewrite [List.length_append, String.toList_ofList]
    exact Nat.add_pos_left (Nat.succ_pos _) _
  rw [Substitution.Longer, Substitution.oldBlock, Substitution.newBlock, List.length_append,
    List.length_append, show markIpv6.lead = [] from rfl,
    show markIpv6.statement = markIpv6.replacement from rfl, List.length_nil]
  omega

/-- The new form is clear of the second substitution, and of the statement in its old form. -/
theorem clear_newIp : Unbordered newIp ∧
    ∀ m ∈ [optionalIp.oldBlock, optionalGw.oldBlock, optionalGw.newBlock], Clear newIp m := by
  unfold newIp Substitution.oldBlock Substitution.newBlock optionalIp optionalGw optional
  repeat rw [String.toList_ofList]
  decide

/-- The marker is clear of both substitutions. -/
theorem clear_optionalIpv6Marker : ∀ σ ∈ [optionalIp, optionalGw],
    Clear optionalIpv6Marker σ.oldBlock ∧ Clear optionalIpv6Marker σ.newBlock := by
  unfold optionalIpv6Marker Substitution.oldBlock Substitution.newBlock optionalIp optionalGw
    optional
  repeat rw [String.toList_ofList]
  decide

/-- After the first substitution, the new form first occurs where either form did. -/
theorem firstIn_newIp (text : List Char) :
    (firstIn newIp (optionalIp.apply text)).map Prod.fst =
      firstOfEither optionalIp.anchor newIp text := by
  rw [firstOfEither]
  by_cases hmem : optionalIp.anchor <:+: text
  · obtain ⟨a, b, hfirst, _⟩ := exists_firstIn hmem
    rw [Substitution.apply_of_firstIn hfirst, hfirst]
    have hnew : a ++ optionalIp.newBlock = a ++ newIp := rfl
    by_cases hp : newIp <:+: a
    · -- It is there before the anchor, and comes first.
      obtain ⟨x, y, hx, ha⟩ := exists_firstIn hp
      rw [Substitution.eq_of_firstIn hfirst, List.append_assoc, List.append_assoc,
        firstIn_append hx, firstIn_append hx]
      have hlength := congrArg List.length ha
      have hpos : 0 < newIp.length := List.length_pos_of_ne_nil clear_newIp.1.1
      simp only [List.length_append] at hlength
      have hless : ¬a.length ≤ x.length := by omega
      show some x = some (if a.length ≤ x.length then a else x)
      rw [if_neg hless]
    · have hclear := clear_newIp.2 _ List.mem_cons_self
      rw [hnew, clear_newIp.1.firstIn_self hp, Substitution.eq_of_firstIn hfirst,
        hclear.firstIn_after hp]
      rcases firstIn newIp (optionalIp.trail ++ b) with _ | ⟨z, w⟩
      · rfl
      · simp
  · rw [Substitution.apply_of_absent hmem, firstIn_eq_none.2 hmem]
    rcases firstIn newIp text with _ | ⟨a, b⟩ <;> rfl

theorem exists_startsWith_iff {p start text : List Char} :
    (p <:+: text ∧ StartsWith p start text) ↔
      ∃ a, (firstIn p text).map Prod.fst = some a ∧ lineStart a = start := by
  constructor
  · rintro ⟨hmem, hstart⟩
    obtain ⟨a, b, hfirst, _⟩ := exists_firstIn hmem
    exact ⟨a, by rw [hfirst]; rfl, hstart a b hfirst⟩
  · rintro ⟨a, ha, hstart⟩
    obtain ⟨⟨a, b⟩, hfirst, rfl⟩ := Option.map_eq_some_iff.1 ha
    refine ⟨by_contra fun hnot => ?_, fun a' b' hfirst' => ?_⟩
    · rw [firstIn_eq_none.2 hnot] at hfirst
      cases hfirst
    · rw [hfirst] at hfirst'
      rw [← (Prod.mk.inj (Option.some.inj hfirst')).1]
      exact hstart

/-- The text with both substitutions. -/
def withoutIpv6 (text : List Char) : List Char := optionalGw.apply (optionalIp.apply text)

theorem withoutIpv6_eq_iff {text : List Char} :
    withoutIpv6 text = text ↔ ¬optionalIp.anchor <:+: text ∧ ¬optionalGw.anchor <:+: text := by
  constructor
  · intro h
    have hle := longer_optionalGw.length_le (optionalIp.apply text)
    have hlength : (withoutIpv6 text).length = text.length := congrArg List.length h
    have hip : ¬optionalIp.anchor <:+: text := by
      intro hmem
      have hlt := longer_optionalIp.length_lt hmem
      rw [withoutIpv6] at hlength
      omega
    refine ⟨hip, fun hmem => ?_⟩
    rw [withoutIpv6, Substitution.apply_of_absent hip] at hlength
    have hlt := longer_optionalGw.length_lt hmem
    omega
  · rintro ⟨hip, hgw⟩
    rw [withoutIpv6, Substitution.apply_of_absent hip, Substitution.apply_of_absent hgw]

theorem length_lt_withoutIpv6 {text : List Char} (h : withoutIpv6 text ≠ text) :
    text.length < (withoutIpv6 text).length := by
  have hle := longer_optionalGw.length_le (optionalIp.apply text)
  have hle' := longer_optionalIp.length_le text
  by_cases hip : optionalIp.anchor <:+: text
  · have hlt := longer_optionalIp.length_lt hip
    rw [withoutIpv6]
    omega
  · have hgw : optionalGw.anchor <:+: text := by
      by_contra hgw
      exact h (withoutIpv6_eq_iff.2 ⟨hip, hgw⟩)
    rw [withoutIpv6, Substitution.apply_of_absent hip]
    exact longer_optionalGw.length_lt hgw

/-- Where the marker is put in the text with both substitutions. -/
theorem markIpv6_iff (text : List Char) :
    (newIp <:+: withoutIpv6 text ∧ StartsWith newIp "        ".toList (withoutIpv6 text)) ↔
      ∃ a, firstOfEither optionalIp.anchor newIp text = some a ∧
        lineStart a = "        ".toList := by
  have hold := clear_newIp.2 optionalGw.oldBlock (by simp)
  have hnew := clear_newIp.2 optionalGw.newBlock (by simp)
  have hline : 'c' ∉ "        ".toList ∧ 'c' ∈ lineStart optionalGw.oldBlock ∧
      'c' ∈ lineStart optionalGw.newBlock := by
    unfold Substitution.oldBlock Substitution.newBlock optionalGw optional
    repeat rw [String.toList_ofList]
    decide
  rw [withoutIpv6, Substitution.infix_apply hold hnew,
    Substitution.startsWith_apply hold hnew ⟨'c', hline.2.1, hline.1⟩ ⟨'c', hline.2.2, hline.1⟩,
    exists_startsWith_iff, firstIn_newIp]

/-- What is done with a text that has no marker and that changes. -/
theorem patchOptionalMgmtIpv6_of_changed {text : List Char} (hmarker : ¬optionalIpv6Marker <:+: text)
    (h : withoutIpv6 text ≠ text) : patchOptionalMgmtIpv6 text =
      ⟨markIpv6.apply (withoutIpv6 text), true, optionalIp.made text ++
        optionalGw.made (optionalIp.apply text) ++ markIpv6.made (withoutIpv6 text)⟩ :=
  (if_neg hmarker).trans (if_neg h)

theorem patchOptionalMgmtIpv6_of_unchanged {text : List Char}
    (hmarker : ¬optionalIpv6Marker <:+: text) (h : withoutIpv6 text = text) :
    patchOptionalMgmtIpv6 text =
      ⟨text, false, optionalIp.made text ++ optionalGw.made (optionalIp.apply text)⟩ := by
  have hpatch : patchOptionalMgmtIpv6 text = ⟨withoutIpv6 text, false,
      optionalIp.made text ++ optionalGw.made (optionalIp.apply text)⟩ :=
    (if_neg hmarker).trans (if_pos h)
  rw [hpatch, h]

theorem length_lt_patchOptionalMgmtIpv6 (text : List Char) (hmarker : ¬optionalIpv6Marker <:+: text)
    (h : (patchOptionalMgmtIpv6 text).applied = true) :
    text.length < (patchOptionalMgmtIpv6 text).text.length := by
  by_cases hsame : withoutIpv6 text = text
  · rw [patchOptionalMgmtIpv6_of_unchanged hmarker hsame] at h
    cases h
  · rw [patchOptionalMgmtIpv6_of_changed hmarker hsame]
    exact (length_lt_withoutIpv6 hsame).trans_le (longer_markIpv6.length_le _)

/-- The marker is left just if there is a line to put it before. -/
theorem marker_infix_markIpv6 {text : List Char} (hmarker : ¬optionalIpv6Marker <:+: text) :
    optionalIpv6Marker <:+: markIpv6.apply (withoutIpv6 text) ↔ newIp <:+: withoutIpv6 text := by
  constructor
  · intro h
    by_contra hnot
    have hanchor : ¬markIpv6.anchor <:+: withoutIpv6 text := by
      rwa [anchor_markIpv6]
    have hip := clear_optionalIpv6Marker _ List.mem_cons_self
    have hgw := clear_optionalIpv6Marker _ (List.mem_cons_of_mem _ List.mem_cons_self)
    rw [Substitution.apply_of_absent hanchor, withoutIpv6, Substitution.infix_apply hgw.1 hgw.2,
      Substitution.infix_apply hip.1 hip.2] at h
    exact hmarker h
  · intro h
    have hanchor : markIpv6.anchor <:+: withoutIpv6 text := by
      rwa [anchor_markIpv6]
    obtain ⟨a, b, hfirst, _⟩ := exists_firstIn hanchor
    rw [Substitution.apply_of_firstIn hfirst]
    refine ⟨a, "\n        ".toList ++ newIp ++ (markIpv6.trail ++ b), ?_⟩
    simp [Substitution.newBlock, markIpv6]

/-- The marker is put on the line of the statement, and the statement eight spaces into the next. -/
theorem inPlace_ipv6_iff (text : List Char) :
    (∀ s ∈ optionalIp.made text ++ optionalGw.made (optionalIp.apply text) ++
        markIpv6.made (withoutIpv6 text), s.InPlace) ↔
      StartsWith newIp "        ".toList (withoutIpv6 text) := by
  have hsame (σ : Substitution) (hσ : σ.inserted = σ.lead) (t : List Char) :
      ∀ s ∈ σ.made t, s.InPlace :=
    Substitution.inPlace_made_iff.2 fun a b _ => by rw [hσ]
  have hline : markIpv6.inserted.any isLineEnd = true ∧
      lineStart markIpv6.inserted = "        ".toList := by
    unfold markIpv6 optionalIpv6Marker
    repeat rw [String.toList_ofList]
    decide
  rw [List.forall_mem_append, List.forall_mem_append, and_iff_right ⟨hsame _ rfl _, hsame _ rfl _⟩,
    Substitution.inPlace_made_iff, anchor_markIpv6, StartsWith]
  refine forall₃_congr fun a b _ => ?_
  rw [lineStart_append_of_end (exists_isLineEnd_of_any hline.1), hline.2, show markIpv6.lead = [] from rfl, List.append_nil]
  exact eq_comm

theorem optionalMgmtIpv6_iff (text : List Char) :
    AllOrNothing patchOptionalMgmtIpv6 text ↔ Transform.Fits .optionalMgmtIpv6 text := by
  rw [Transform.Fits]
  by_cases hmarker : optionalIpv6Marker <:+: text
  · exact iff_of_true (allOrNothing_of_marked (patchOptionalMgmtIpv6_of_marked hmarker))
      (.inl hmarker)
  · rw [or_iff_right hmarker]
    by_cases hsame : withoutIpv6 text = text
    · exact iff_of_true
        (allOrNothing_of_unchanged (patchOptionalMgmtIpv6_of_unchanged hmarker hsame))
        (.inl (withoutIpv6_eq_iff.1 hsame))
    · have hpatch := patchOptionalMgmtIpv6_of_changed hmarker hsame
      have hagain := again_iff text (fun _ => patchOptionalMgmtIpv6_of_marked)
        length_lt_patchOptionalMgmtIpv6
      rw [or_iff_right (mt withoutIpv6_eq_iff.2 hsame), ← markIpv6_iff]
      have happlied : (patchOptionalMgmtIpv6 text).applied = true := by rw [hpatch]
      constructor
      · intro h
        have hmarked := hagain.1 (h.again happlied)
        have hplace := h.inPlace happlied
        rw [hpatch] at hmarked hplace
        exact ⟨(marker_infix_markIpv6 hmarker).1 hmarked, (inPlace_ipv6_iff text).1 hplace⟩
      · rintro ⟨hnew, hstart⟩
        refine ⟨fun hnot => ?_, fun _ => hagain.2 ?_, fun _ => ?_⟩
        · rw [happlied] at hnot
          cases hnot
        · rw [hpatch]
          exact (marker_infix_markIpv6 hmarker).2 hnew
        · rw [hpatch]
          exact (inPlace_ipv6_iff text).2 hstart

/-! ## Warm links -/

theorem patchWarmLinks_of_marked {text : List Char} (h : warmLinkMarker <:+: text) :
    patchWarmLinks text = ⟨text, true, []⟩ := if_pos h

theorem longer_delay : delay.Longer := by
  unfold Substitution.Longer Substitution.oldBlock Substitution.newBlock delay unlines
  repeat rw [List.flatMap_cons]
  repeat rw [String.toList_ofList]
  decide +kernel

theorem longer_qemu : qemu.Longer := by
  unfold Substitution.Longer Substitution.oldBlock Substitution.newBlock qemu unlines
  repeat rw [List.flatMap_cons]
  repeat rw [String.toList_ofList]
  decide +kernel

theorem longer_qemuBroken : qemuBroken.Longer := by
  have hlead : qemuBroken.lead.length = 1 := rfl
  have hblank : ("\n\n".toList).length = 2 := by
    rewrite [String.toList_ofList]
    rfl
  have hinserted : qemuBroken.inserted.length = controller.length + 2 := by
    rewrite [qemuBroken, List.length_append, hblank]
    rfl
  have hsame : qemuBroken.statement = qemuBroken.replacement := rfl
  rw [Substitution.Longer, Substitution.oldBlock, Substitution.newBlock, List.length_append,
    List.length_append, hlead, hinserted, hsame]
  omega

/-- What the transform looks for, or leaves, later is clear of the first substitution. -/
theorem clear_delay : ∀ p ∈ [qemu.anchor, qemuBroken.anchor, warmLinkMarker],
    Clear p delay.oldBlock ∧ Clear p delay.newBlock := by
  unfold Substitution.anchor Substitution.oldBlock Substitution.newBlock qemu qemuBroken
    warmLinkMarker delay unlines
  repeat rw [List.flatMap_cons]
  repeat rw [String.toList_ofList]
  decide +kernel

/-- And of the second. -/
theorem clear_qemu : ∀ p ∈ [qemuBroken.anchor, warmLinkMarker],
    Clear p qemu.oldBlock ∧ Clear p qemu.newBlock := by
  unfold Substitution.anchor Substitution.oldBlock Substitution.newBlock qemuBroken warmLinkMarker
    qemu unlines
  repeat rw [List.flatMap_cons]
  repeat rw [String.toList_ofList]
  decide +kernel

theorem infix_delay {p : List Char} (hp : p ∈ [qemu.anchor, qemuBroken.anchor, warmLinkMarker])
    (text : List Char) : p <:+: delay.apply text ↔ p <:+: text :=
  Substitution.infix_apply (clear_delay p hp).1 (clear_delay p hp).2

/-- The text with the first two substitutions. -/
def paused (text : List Char) : List Char := qemu.apply (delay.apply text)

theorem infix_paused {p : List Char} (hp : p ∈ [qemuBroken.anchor, warmLinkMarker])
    (text : List Char) : p <:+: paused text ↔ p <:+: text := by
  rw [paused, Substitution.infix_apply (clear_qemu p hp).1 (clear_qemu p hp).2,
    infix_delay (List.mem_cons_of_mem _ hp)]

/-- The two cases of a text that has no marker and in which both anchors are found. -/
theorem patchWarmLinks_of_found {text : List Char} (hmarker : ¬warmLinkMarker <:+: text)
    (hdelay : delay.anchor <:+: text) (hclass : qemuBroken.statement <:+: text) :
    patchWarmLinks text =
      if ¬qemu.anchor <:+: text then ⟨delay.apply text, false, delay.made text⟩
      else ⟨qemuBroken.apply (paused text), true, delay.made text ++ qemu.made (delay.apply text) ++
        qemuBroken.made (paused text)⟩ := by
  have hfound : ¬(¬delay.anchor <:+: text ∨ ¬qemuBroken.statement <:+: text) := by
    rw [not_or, not_not, not_not]
    exact ⟨hdelay, hclass⟩
  rw [patchWarmLinks, if_neg hmarker, if_neg hfound]
  simp only [infix_delay List.mem_cons_self, paused]

theorem patchWarmLinks_of_not_found {text : List Char} (hmarker : ¬warmLinkMarker <:+: text)
    (h : ¬delay.anchor <:+: text ∨ ¬qemuBroken.statement <:+: text) :
    patchWarmLinks text = ⟨text, false, []⟩ :=
  (if_neg hmarker).trans (if_pos h)

theorem length_lt_paused {text : List Char} (h : delay.anchor <:+: text) :
    text.length < (paused text).length :=
  (longer_delay.length_lt h).trans_le (longer_qemu.length_le _)

theorem length_lt_patchWarmLinks (text : List Char) (hmarker : ¬warmLinkMarker <:+: text)
    (h : (patchWarmLinks text).applied = true) :
    text.length < (patchWarmLinks text).text.length := by
  by_cases hfound : ¬delay.anchor <:+: text ∨ ¬qemuBroken.statement <:+: text
  · rw [patchWarmLinks_of_not_found hmarker hfound] at h
    cases h
  · rw [not_or, not_not, not_not] at hfound
    rw [patchWarmLinks_of_found hmarker hfound.1 hfound.2] at h ⊢
    split at h
    · cases h
    · rename_i hqemu
      rw [if_neg hqemu]
      exact (length_lt_paused hfound.1).trans_le (longer_qemuBroken.length_le _)

theorem marker_infix_qemuBroken {text : List Char} (hmarker : ¬warmLinkMarker <:+: text) :
    warmLinkMarker <:+: qemuBroken.apply (paused text) ↔ qemuBroken.anchor <:+: text := by
  rw [← infix_paused List.mem_cons_self]
  constructor
  · intro h
    by_contra hnot
    rw [Substitution.apply_of_absent hnot,
      infix_paused (List.mem_cons_of_mem _ List.mem_cons_self)] at h
    exact hmarker h
  · intro h
    obtain ⟨a, b, hfirst, _⟩ := exists_firstIn h
    have hcontroller : warmLinkMarker <:+: qemuBroken.newBlock :=
      ⟨"\n\n".toList, '\n' :: unlines controllerLines ++ ("\n\n".toList ++ qemuBroken.replacement), by
          simp only [Substitution.newBlock, qemuBroken, controller, List.append_assoc]⟩
    rw [Substitution.apply_of_firstIn hfirst]
    exact hcontroller.trans ⟨a, qemuBroken.trail ++ b, rfl⟩

/-- What is before the new statement ends with the indentation of the old one, on a line of its own. -/
structure Substitution.Indented (σ : Substitution) : Prop where
  lead : ∀ d ∈ σ.lead, isLineEnd d = false
  ends : ¬∀ d ∈ σ.inserted, isLineEnd d = false
  indent : lineStart σ.inserted = σ.lead

instance (σ : Substitution) : Decidable σ.Indented :=
  decidable_of_iff (σ.lead.all (fun d => !isLineEnd d) = true ∧ σ.inserted.any isLineEnd = true ∧
      lineStart σ.inserted = σ.lead) <| by
    constructor
    · rintro ⟨hlead, hends, hindent⟩
      exact ⟨isLineEnd_of_all hlead, exists_isLineEnd_of_any hends, hindent⟩
    · rintro ⟨hlead, hends, hindent⟩
      refine ⟨List.all_eq_true.2 fun d hd => ?_, ?_, hindent⟩
      · rw [hlead d hd]
        rfl
      · by_contra hany
        rw [List.any_eq_true] at hany
        exact hends fun d hd => Bool.eq_false_iff.2 fun hend => hany ⟨d, hd, hend⟩

theorem indented_delay : delay.Indented := by
  unfold delay unlines
  repeat rw [List.flatMap_cons]
  repeat rw [String.toList_ofList]
  decide

theorem indented_qemu : qemu.Indented := by
  unfold qemu unlines
  repeat rw [List.flatMap_cons]
  repeat rw [String.toList_ofList]
  decide

theorem Substitution.Indented.inPlace_iff {σ : Substitution} (h : σ.Indented) (text : List Char) :
    (∀ s ∈ σ.made text, s.InPlace) ↔ StartsWith σ.anchor [] text := by
  rw [Substitution.inPlace_made_iff, StartsWith]
  refine forall₃_congr fun a b _ => ?_
  rw [lineStart_append_of_end h.ends, h.indent, lineStart_append h.lead]
  exact ⟨fun heq => List.append_left_eq_self.1 heq.symm, fun heq => by rw [heq, List.nil_append]⟩

/-- The controller is put before the line of the class. -/
theorem inPlace_qemuBroken (text : List Char) : ∀ s ∈ qemuBroken.made text, s.InPlace := by
  refine Substitution.inPlace_made_iff.2 fun a b _ => ?_
  have hnew : a ++ qemuBroken.inserted = (a ++ controller ++ ['\n']) ++ '\n' :: [] := by
    simp [qemuBroken]
  have hold : a ++ qemuBroken.lead = a ++ '\n' :: [] := rfl
  rw [hnew, hold, lineStart_append_end rfl (List.forall_mem_nil _),
    lineStart_append_end rfl (List.forall_mem_nil _)]

theorem inPlace_warmLinks_iff (text : List Char) :
    (∀ s ∈ delay.made text ++ qemu.made (delay.apply text) ++ qemuBroken.made (paused text),
        s.InPlace) ↔
      StartsWith delay.anchor [] text ∧ StartsWith qemu.anchor [] text := by
  have hclear := clear_delay _ List.mem_cons_self
  have hline : 't' ∈ lineStart delay.oldBlock ∧ 't' ∈ lineStart delay.newBlock := by
    unfold Substitution.oldBlock Substitution.newBlock delay unlines
    repeat rw [List.flatMap_cons]
    repeat rw [String.toList_ofList]
    decide
  rw [List.forall_mem_append, List.forall_mem_append, and_iff_left (inPlace_qemuBroken _),
    indented_delay.inPlace_iff, indented_qemu.inPlace_iff,
    Substitution.startsWith_apply hclear.1 hclear.2 ⟨'t', hline.1, List.not_mem_nil⟩
      ⟨'t', hline.2, List.not_mem_nil⟩]

theorem warmLinks_iff (text : List Char) :
    AllOrNothing patchWarmLinks text ↔ Transform.Fits .warmLinks text := by
  rw [Transform.Fits]
  by_cases hmarker : warmLinkMarker <:+: text
  · exact iff_of_true (allOrNothing_of_marked (patchWarmLinks_of_marked hmarker)) (.inl hmarker)
  · rw [or_iff_right hmarker]
    by_cases hfound : ¬delay.anchor <:+: text ∨ ¬qemuBroken.statement <:+: text
    · rw [← or_assoc]
      exact iff_of_true (allOrNothing_of_unchanged (patchWarmLinks_of_not_found hmarker hfound))
        (.inl hfound)
    · rw [← or_assoc, or_iff_right hfound]
      rw [not_or, not_not, not_not] at hfound
      have hpatch := patchWarmLinks_of_found hmarker hfound.1 hfound.2
      by_cases hqemu : qemu.anchor <:+: text
      · rw [if_neg (not_not_intro hqemu)] at hpatch
        have happlied : (patchWarmLinks text).applied = true := by rw [hpatch]
        have hagain := again_iff text (fun _ => patchWarmLinks_of_marked) length_lt_patchWarmLinks
        rw [and_iff_right hqemu]
        constructor
        · intro h
          have hmarked := hagain.1 (h.again happlied)
          have hplace := h.inPlace happlied
          rw [hpatch] at hmarked hplace
          exact ⟨(marker_infix_qemuBroken hmarker).1 hmarked, (inPlace_warmLinks_iff text).1 hplace⟩
        · rintro ⟨hclass, hstart⟩
          refine ⟨fun hnot => ?_, fun _ => hagain.2 ?_, fun _ => ?_⟩
          · rw [happlied] at hnot
            cases hnot
          · rw [hpatch]
            exact (marker_infix_qemuBroken hmarker).2 hclass
          · rw [hpatch]
            exact (inPlace_warmLinks_iff text).2 hstart
      · -- The text is given up half-way.
        rw [if_pos hqemu] at hpatch
        refine iff_of_false (fun h => ?_) fun h => hqemu h.1
        have hsame : delay.apply text = text := by
          have htext := h.nothing (by rw [hpatch])
          rwa [hpatch] at htext
        have hlt := longer_delay.length_lt hfound.1
        rw [hsame] at hlt
        exact Nat.lt_irrefl _ hlt

/-! ## Results -/

/-- The transforms keep what they promise for the texts that fit them, and for no other. -/
theorem all_or_nothing_iff (t : Transform) (text : List Char) :
    AllOrNothing t.patch text ↔ t.Fits text := by
  rcases t with _ | _ | _
  · exact persistOverlay_iff text
  · exact optionalMgmtIpv6_iff text
  · exact warmLinks_iff text

/-- A launcher without the line that QEMU's command is logged with. -/
def unlogged : List Char := unlines [
  "class QemuBroken(Exception):",
  "    def run(self):",
  "        while True:",
  "            time.sleep(5)",
  "",
  "        # check if we need to provision"]

theorem not_all_or_nothing : ¬AllOrNothing patchWarmLinks unlogged := by
  have hlines : ¬warmLinkMarker <:+: unlogged ∧ delay.anchor <:+: unlogged ∧
      qemuBroken.statement <:+: unlogged ∧ ¬qemu.anchor <:+: unlogged := by
    unfold warmLinkMarker Substitution.anchor Substitution.oldBlock delay qemuBroken qemu unlogged
      unlines
    repeat rw [List.flatMap_cons]
    repeat rw [String.toList_ofList]
    decide +kernel
  obtain ⟨hmarker, hdelay, hclass, hqemu⟩ := hlines
  rw [warmLinks_iff, Transform.Fits, or_iff_right hmarker, or_iff_right (not_not_intro hdelay),
    or_iff_right (not_not_intro hclass)]
  exact fun h => hqemu h.1

end Dnlab.ImageBuild
