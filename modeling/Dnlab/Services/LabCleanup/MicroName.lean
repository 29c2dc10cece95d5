import Dnlab.Lib.Parts
import Dnlab.Services.LabCleanup

/-!
# The lab in the name of a container

The container of a device is named `clab-dnlab-<lab>-<vd>-<vd>`, and the cleanup
finds the lab in it by the repetition of the name of the device, without knowing
the labs (`parseMicroContainerLab`). Both names may have hyphens, and more than
one lab and device may share the name of their container; of these, the parser
takes the shortest lab. So it gives back a lab if and only if no shorter lab has
a device with this container (`parseMicroContainerLab_eq_iff`).
-/

namespace Dnlab.LabCleanup

open Naming (microVdContainerName)

/-- What follows `clab-dnlab-` in the name of a container. -/
def microBody (lab vd : String) : String := lab ++ "-" ++ vd ++ "-" ++ vd

theorem microVdContainerName_eq (lab vd : String) :
    microVdContainerName lab vd = "clab-dnlab-" ++ microBody lab vd := by
  rw [microVdContainerName, Naming.microTopologyName, microBody, ← String.toList_inj]
  simp only [String.toList_append, List.append_assoc]
  rfl

theorem removeStart_microVdContainerName (lab vd : String) :
    Text.removeStart (microVdContainerName lab vd) "clab-dnlab-" = microBody lab vd := by
  rw [microVdContainerName_eq, Text.removeStart, Text.startsWith, String.toList_append,
    if_pos (List.isPrefixOf_iff_prefix.2 (List.prefix_append _ _)), List.drop_left,
    String.ofList_toList]

theorem split_microBody (lab vd : String) : Text.split '-' (microBody lab vd) =
    Text.split '-' lab ++ (Text.split '-' vd ++ Text.split '-' vd) := by
  rw [microBody, Text.split_append rfl, Text.split_append rfl, List.append_assoc]

/-! ## Repetitions -/

/-- From the part `i` on, the parts are a list twice. -/
def RepeatedFrom (parts : List String) (i : ℕ) : Prop := ∃ half, parts.drop i = half ++ half

theorem repeatedFrom_iff {parts : List String} {i : ℕ} :
    RepeatedFrom parts i ↔ (parts.drop i).length % 2 = 0 ∧
      (parts.drop i).take ((parts.drop i).length / 2) =
        (parts.drop i).drop ((parts.drop i).length / 2) := by
  constructor
  · rintro ⟨half, h⟩
    have hlen : (half ++ half).length / 2 = half.length := by
      rw [List.length_append]
      omega
    rw [h, hlen, List.take_left, List.drop_left, List.length_append]
    exact ⟨by omega, rfl⟩
  · rintro ⟨-, h⟩
    exact ⟨_, (List.take_append_drop _ _).symm.trans (congrArg _ h.symm)⟩

/-- The parser cuts the name where the first repetition begins. -/
theorem exists_parseMicroContainerLab (lab vd : String) :
    ∃ i, 0 < i ∧ RepeatedFrom (Text.split '-' (microBody lab vd)) i ∧
      (∀ j, 0 < j → RepeatedFrom (Text.split '-' (microBody lab vd)) j → i ≤ j) ∧
      parseMicroContainerLab (microVdContainerName lab vd) =
        Text.join "-" ((Text.split '-' (microBody lab vd)).take i) := by
  set parts := Text.split '-' (microBody lab vd) with hparts
  set L := Text.split '-' lab
  set V := Text.split '-' vd
  have hsplit : parts = L ++ (V ++ V) := split_microBody lab vd
  have hV : 0 < V.length := List.length_pos_iff.2 (Text.split_ne_nil _ _)
  have hL : 0 < L.length := List.length_pos_iff.2 (Text.split_ne_nil _ _)
  have hlen : parts.length = L.length + (V.length + V.length) := by
    rw [hsplit, List.length_append, List.length_append]
  rw [parseMicroContainerLab, removeStart_microVdContainerName, ← hparts]
  -- the lab is one of the places where the name can be cut
  have hlab : RepeatedFrom parts L.length := ⟨V, by rw [hsplit, List.drop_left]⟩
  split
  case h_1 i hfind =>
    rw [List.find?_range'_eq_some] at hfind
    obtain ⟨hi, hmem, hfirst⟩ := hfind
    have hpos : 0 < i := (List.mem_range'_1.1 hmem).1
    dsimp only at hi hfirst
    rw [Bool.and_eq_true, decide_eq_true_eq, decide_eq_true_eq] at hi
    refine ⟨i, hpos, repeatedFrom_iff.2 hi, fun j hj hrep => ?_, rfl⟩
    by_contra hlt
    have hnot := hfirst j hj (not_le.1 hlt)
    obtain ⟨heven, hhalf⟩ := repeatedFrom_iff.1 hrep
    rw [heven, hhalf, decide_eq_true rfl, decide_eq_true rfl] at hnot
    cases hnot
  case h_2 hnone =>
    rw [List.find?_eq_none] at hnone
    refine absurd ?_ (hnone L.length (List.mem_range'_1.2 ⟨hL, by omega⟩))
    dsimp only
    rw [Bool.and_eq_true, decide_eq_true_eq, decide_eq_true_eq]
    exact repeatedFrom_iff.1 hlab

theorem repeatedFrom_length (lab vd : String) :
    RepeatedFrom (Text.split '-' (microBody lab vd)) (Text.split '-' lab).length :=
  ⟨Text.split '-' vd, by rw [split_microBody, List.drop_left]⟩

/-- Where the parts of a name repeat, it is the name of a container of another device. -/
theorem exists_name_of_repeatedFrom {lab vd : String} {i : ℕ} (hpos : 0 < i)
    (hi : i ≤ (Text.split '-' lab).length)
    (h : RepeatedFrom (Text.split '-' (microBody lab vd)) i) :
    ∃ vd', microVdContainerName (Text.join "-" ((Text.split '-' (microBody lab vd)).take i)) vd' =
      microVdContainerName lab vd := by
  obtain ⟨half, hhalf⟩ := h
  have hV : 0 < (Text.split '-' vd).length := List.length_pos_iff.2 (Text.split_ne_nil _ _)
  have hlen := congrArg List.length (split_microBody lab vd)
  rw [List.length_append, List.length_append] at hlen
  have htake : (Text.split '-' (microBody lab vd)).take i ≠ [] := by
    rw [Ne, List.take_eq_nil_iff]
    rintro (rfl | h)
    · exact lt_irrefl _ hpos
    · exact Text.split_ne_nil _ _ h
  have hne : half ≠ [] := by
    rintro rfl
    rw [List.append_nil, List.drop_eq_nil_iff] at hhalf
    omega
  refine ⟨Text.join "-" half, ?_⟩
  rw [microVdContainerName_eq, microVdContainerName_eq, Text.append_left_inj, microBody,
    ← Text.join_append htake hne, ← Text.join_append (List.append_ne_nil_of_left_ne_nil htake _) hne,
    List.append_assoc, ← hhalf, List.take_append_drop, Text.join_split rfl]

theorem microBody_inj {lab vd lab' vd' : String} :
    microVdContainerName lab' vd' = microVdContainerName lab vd ↔
      microBody lab' vd' = microBody lab vd := by
  rw [microVdContainerName_eq, microVdContainerName_eq, Text.append_left_inj]

/-- The more parts are joined, the longer the text. -/
theorem length_join_take_lt {parts : List String} {i j : ℕ} (hpos : 0 < i) (hij : i < j)
    (hj : j ≤ parts.length) :
    (Text.join "-" (parts.take i)).toList.length < (Text.join "-" (parts.take j)).toList.length := by
  have hsplit : parts.take j = parts.take i ++ (parts.take j).drop i := by
    conv_lhs => rw [← List.take_append_drop i (parts.take j), List.take_take, min_eq_left hij.le]
  have hi : parts.take i ≠ [] := by
    rw [Ne, List.take_eq_nil_iff]
    rintro (rfl | rfl)
    · exact lt_irrefl _ hpos
    · exact absurd hj (by simp; omega)
  have hrest : (parts.take j).drop i ≠ [] := by
    rw [Ne, List.drop_eq_nil_iff, List.length_take]
    omega
  rw [hsplit, Text.join_append hi hrest, String.toList_append, String.toList_append,
    List.length_append, List.length_append]
  have : "-".toList.length = 1 := rfl
  omega

/-- The parser gives the lab back if and only if no device of a lab with a shorter name has the
    same name for its container. -/
theorem parseMicroContainerLab_eq_iff (lab vd : String) :
    parseMicroContainerLab (microVdContainerName lab vd) = lab ↔
      ∀ lab' vd', microVdContainerName lab' vd' = microVdContainerName lab vd →
        lab.toList.length ≤ lab'.toList.length := by
  obtain ⟨i, hpos, hrep, hfirst, hparse⟩ := exists_parseMicroContainerLab lab vd
  have hlab : (Text.split '-' (microBody lab vd)).take (Text.split '-' lab).length =
      Text.split '-' lab := by
    rw [split_microBody, List.take_left]
  have hi : i ≤ (Text.split '-' lab).length :=
    hfirst _ (List.length_pos_iff.2 (Text.split_ne_nil _ _)) (repeatedFrom_length lab vd)
  have hle : (Text.split '-' lab).length ≤ (Text.split '-' (microBody lab vd)).length := by
    rw [split_microBody, List.length_append]
    omega
  have hjoin (s : String) : Text.join "-" (Text.split '-' s) = s := Text.join_split rfl s
  rw [hparse]
  constructor
  · intro heq lab' vd' hname
    -- the other lab ends where some repetition begins, hence not before the first one
    have hbody := microBody_inj.1 hname
    have hj : i ≤ (Text.split '-' lab').length := by
      refine hfirst _ (List.length_pos_iff.2 (Text.split_ne_nil _ _)) ?_
      rw [← hbody]
      exact repeatedFrom_length lab' vd'
    have hlab' : (Text.split '-' (microBody lab vd)).take (Text.split '-' lab').length =
        Text.split '-' lab' := by
      rw [← hbody, split_microBody, List.take_left]
    have hle' : (Text.split '-' lab').length ≤ (Text.split '-' (microBody lab vd)).length := by
      rw [← hbody, split_microBody, List.length_append]
      omega
    rw [← heq, ← hjoin lab', ← hlab']
    rcases hj.eq_or_lt with rfl | hlt
    · rfl
    · exact (length_join_take_lt hpos hlt hle').le
  · intro h
    rcases hi.eq_or_lt with rfl | hlt
    · rw [hlab, hjoin]
    · obtain ⟨vd', hname⟩ := exists_name_of_repeatedFrom hpos hi hrep
      have hshort := length_join_take_lt hpos hlt hle
      rw [hlab, hjoin] at hshort
      exact absurd (h _ vd' hname) (not_le.2 hshort)

/-- The lab `demo-r1-r1` has a device `r1`, the lab `demo` a device `r1-r1`. -/
theorem not_parseMicroContainerLab_eq :
    ¬∀ lab vd : String, parseMicroContainerLab (microVdContainerName lab vd) = lab := by
  intro h
  exact absurd (h "demo-r1-r1" "r1") (by decide +kernel)

end Dnlab.LabCleanup
