import Dnlab.Utils.Naming
import Mathlib.Algebra.Group.Nat.Defs

/-!
# When names become unique

`ensureUnique` puts a number at the end of a name that came before. The numbers
of one name go on; nothing looks at the other names, nor at whether the cut to
fifteen characters leaves the number whole. The names become distinct just if
none of the three ways to collide is taken (`promised_iff`).
-/

namespace Dnlab.Naming

/-- What `ensureUnique` promises of the names that it returns. -/
structure Promised (names unique : List String) : Prop where
  length : unique.length = names.length
  nodup : unique.Nodup
  short : ∀ name ∈ unique, name.toList.length ≤ maxIfaceLen
  kept : ∀ (j : ℕ) (name : String), names[j]? = some name → names.count name = 1 →
    unique[j]? = some name

/-- How many digits fit after a name. -/
def digitRoom (name : String) : ℕ := maxIfaceLen - min (maxIfaceLen - 1) name.toList.length

/-- No repetition takes a name that is there or that another repetition takes. -/
structure CollisionFree (names : List String) : Prop where
  /-- The numbers of the repetitions of a name are not cut. -/
  few : ∀ name, names.count name ≤ 10 ^ digitRoom name
  /-- No repetition is named like a name of the list. -/
  fresh : ∀ (name : String) (n : ℕ), 1 ≤ n → n < names.count name → suffixed name n ∉ names
  /-- Repetitions of different names are named differently. -/
  apart : ∀ name name', name ≠ name' → ∀ m n, 1 ≤ m → m < names.count name → 1 ≤ n →
    n < names.count name' → suffixed name m ≠ suffixed name' n

/-! ## Occurrences -/

section Occurrences

variable {names : List String} {name : String}

/-- A name occurs after any number of earlier occurrences less than their number. -/
theorem exists_occurrence {m : ℕ} (h : m < names.count name) :
    ∃ j : ℕ, names[j]? = some name ∧ (names.take j).count name = m := by
  induction names generalizing m with
  | nil => exact absurd h (Nat.not_lt_zero m)
  | cons name' names ih =>
    by_cases hname : name' = name
    · subst hname
      rw [List.count_cons_self] at h
      rcases m with _ | m
      · exact ⟨0, rfl, rfl⟩
      · obtain ⟨j, hj, hcount⟩ := ih (Nat.lt_of_succ_lt_succ h)
        exact ⟨j + 1, hj, by rw [List.take_succ_cons, List.count_cons_self, hcount]⟩
    · rw [List.count_cons_of_ne hname] at h
      obtain ⟨j, hj, hcount⟩ := ih h
      exact ⟨j + 1, hj, by rw [List.take_succ_cons, List.count_cons_of_ne hname, hcount]⟩

/-- Up to an occurrence there are fewer than up to a later position. -/
theorem count_take_lt {j k : ℕ} (hj : names[j]? = some name) (hjk : j < k) :
    (names.take j).count name < (names.take k).count name := by
  have hstep : (names.take (j + 1)).count name = (names.take j).count name + 1 := by
    rw [List.take_add_one, hj, List.count_append]
    simp
  have hle : (names.take (j + 1)).count name ≤ (names.take k).count name :=
    List.Sublist.count_le name (List.take_sublist_take_left hjk)
  omega

theorem count_take_lt_count {j : ℕ} (hj : names[j]? = some name) :
    (names.take j).count name < names.count name := by
  have hlt : j < names.length := (List.getElem?_eq_some_iff.1 hj).1
  have h := count_take_lt hj hlt
  rwa [List.take_length] at h

/-- The names become distinct if each is determined by what it repeats and how often that came
    before. -/
theorem nodup_ensureUnique_iff : (ensureUnique names).Nodup ↔ ∀ name name' m n,
    m < names.count name → n < names.count name' → nthName name m = nthName name' n →
      name = name' ∧ m = n := by
  rw [List.nodup_iff_getElem?_ne_getElem?]
  constructor
  · intro hdistinct name name' m n hm hn heq
    obtain ⟨j, hj, rfl⟩ := exists_occurrence hm
    obtain ⟨k, hk, rfl⟩ := exists_occurrence hn
    have hlt : ∀ {i : ℕ} {a : String}, names[i]? = some a → i < (ensureUnique names).length :=
      fun hi => (length_ensureUnique names).symm ▸ (List.getElem?_eq_some_iff.1 hi).1
    have hsame : (ensureUnique names)[j]? = (ensureUnique names)[k]? := by
      rw [getElem?_ensureUnique, getElem?_ensureUnique, hj, hk, Option.map_some, Option.map_some, heq]
    have hjk : j = k := by
      rcases Nat.lt_trichotomy j k with h | h | h
      · exact absurd hsame (hdistinct j k h (hlt hk))
      · exact h
      · exact absurd hsame.symm (hdistinct k j h (hlt hj))
    subst hjk
    rw [hj, Option.some.injEq] at hk
    exact ⟨hk, by rw [hk]⟩
  · intro hinj j k hjk hk hsame
    rw [length_ensureUnique] at hk
    rw [getElem?_ensureUnique, getElem?_ensureUnique, List.getElem?_eq_getElem hk,
      List.getElem?_eq_getElem (hjk.trans hk), Option.map_some, Option.map_some,
      Option.some.injEq] at hsame
    have hj' := List.getElem?_eq_getElem (hjk.trans hk)
    have hk' := List.getElem?_eq_getElem hk
    obtain ⟨hname, hcount⟩ := hinj _ _ _ _ (count_take_lt_count hj') (count_take_lt_count hk') hsame
    have hlt := count_take_lt hj' hjk
    rw [hcount, hname] at hlt
    exact absurd hlt (lt_irrefl _)

end Occurrences

/-! ## Numbers that are cut -/

theorem toList_suffixed (name : String) (n : ℕ) : (suffixed name n).toList =
    name.toList.take (maxIfaceLen - 1) ++ (Nat.toDigits 10 n).take (digitRoom name) := by
  rw [suffixed, Text.toList_first, String.toList_append, Text.toList_first, List.take_append,
    List.take_take, List.length_take, Nat.toString_eq_ofList_toDigits, String.toList_ofList]
  rfl

theorem suffixed_inj {name : String} {m n : ℕ} : suffixed name m = suffixed name n ↔
    (Nat.toDigits 10 m).take (digitRoom name) = (Nat.toDigits 10 n).take (digitRoom name) := by
  rw [← String.toList_inj, toList_suffixed, toList_suffixed, List.append_cancel_left_eq]

theorem digitRoom_pos (name : String) : 0 < digitRoom name := by
  rw [digitRoom, maxIfaceLen]
  omega

theorem toDigits_pow (w : ℕ) : Nat.toDigits 10 (10 ^ w) = '1' :: List.replicate w '0' := by
  induction w with
  | zero => rfl
  | succ w ih =>
    have hten : (1 : ℕ) < 10 := by decide
    have hpos : 0 < 10 ^ w := Nat.pow_pos (by decide)
    have hzero : 0 < 10 := by decide
    rw [Nat.pow_succ, Nat.mul_comm, ← Nat.add_zero (10 * 10 ^ w),
      ← Nat.toDigits_append_toDigits hten hpos hzero, ih, Nat.toDigits_zero, List.replicate_succ',
      List.cons_append]

/-- The numbers below a bound are told apart if the bound is no more than a power of ten. -/
theorem suffixed_injOn_iff {name : String} {count : ℕ} :
    (∀ m n, 1 ≤ m → m < count → 1 ≤ n → n < count → suffixed name m = suffixed name n → m = n) ↔
      count ≤ 10 ^ digitRoom name := by
  constructor
  · intro hinj
    by_contra hmany
    obtain ⟨w, hw⟩ := Nat.exists_eq_succ_of_ne_zero (digitRoom_pos name).ne'
    have hpow : 10 ^ w < 10 ^ digitRoom name := by
      rw [hw]
      exact Nat.pow_lt_pow_right (by decide) (Nat.lt_succ_self w)
    have hone : ∀ v, 1 ≤ 10 ^ v := fun v => Nat.one_le_pow v 10 (by decide)
    -- Of the digits of `10 ^ (w + 1)`, the cut leaves those of `10 ^ w`.
    have hsame := hinj (10 ^ w) (10 ^ digitRoom name) (hone w) (by omega) (hone _) (by omega) (by
      rw [suffixed_inj, toDigits_pow, toDigits_pow, hw]
      simp)
    omega
  · intro hle m n _ hm _ hn h
    have hwhole : ∀ i, i < count → (Nat.toDigits 10 i).take (digitRoom name) = Nat.toDigits 10 i :=
      fun i hi => List.take_of_length_le
        ((Nat.length_toDigits_le_iff (by decide) (digitRoom_pos name)).2 (hi.trans_le hle))
    rw [suffixed_inj, hwhole m hm, hwhole n hn] at h
    rw [← Nat.ofDigitChars_ten_toDigits (n := m), h, Nat.ofDigitChars_ten_toDigits]

/-! ## The names that are returned -/

section Returned

variable {names : List String}

/-- The repetitions collide in one of three ways, or not at all. -/
theorem nthName_inj_iff_collisionFree : (∀ name name' m n, m < names.count name →
      n < names.count name' → nthName name m = nthName name' n → name = name' ∧ m = n) ↔
    CollisionFree names := by
  have hnth : ∀ {name : String} {n : ℕ}, 1 ≤ n → nthName name n = suffixed name n :=
    fun hn => if_neg (Nat.one_le_iff_ne_zero.1 hn)
  constructor
  · intro hinj
    refine ⟨fun name => suffixed_injOn_iff.1 fun m n hm hm' hn hn' h => ?_,
      fun name n hn hn' hmem => ?_, fun name name' hne m n hm hm' hn hn' h => ?_⟩
    · exact (hinj name name m n hm' hn' (by rw [hnth hm, hnth hn, h])).2
    · obtain ⟨-, hzero⟩ := hinj name (suffixed name n) n 0 hn' (List.count_pos_iff.2 hmem)
        (by rw [hnth hn]; rfl)
      omega
    · exact hne (hinj name name' m n hm' hn' (by rw [hnth hm, hnth hn, h])).1
  · intro hfree name name' m n hm hn h
    have hmem : ∀ {a : String} {i : ℕ}, i < names.count a → a ∈ names :=
      fun hi => List.count_pos_iff.1 (Nat.zero_lt_of_lt hi)
    rcases Nat.eq_zero_or_pos m with rfl | hm'
    · rcases Nat.eq_zero_or_pos n with rfl | hn'
      · exact ⟨h, rfl⟩
      · rw [hnth hn'] at h
        exact absurd (h ▸ hmem hm : suffixed name' n ∈ names) (hfree.fresh name' n hn' hn)
    · rcases Nat.eq_zero_or_pos n with rfl | hn'
      · rw [hnth hm'] at h
        exact absurd (h ▸ hmem hn : suffixed name m ∈ names) (hfree.fresh name m hm' hm)
      · rw [hnth hm', hnth hn'] at h
        by_cases hname : name = name'
        · subst hname
          exact ⟨rfl, suffixed_injOn_iff.2 (hfree.few name) m n hm' hm hn' hn h⟩
        · exact absurd h (hfree.apart name name' hname m n hm' hm hn' hn)

theorem length_nthName_le {name : String} (h : name.toList.length ≤ maxIfaceLen) (n : ℕ) :
    (nthName name n).toList.length ≤ maxIfaceLen := by
  unfold nthName
  split
  · exact h
  · exact Text.length_first_le _ _

/-- `ensureUnique` keeps its promise just if no repetition takes a name that is taken. -/
theorem promised_iff (h : ∀ name ∈ names, name.toList.length ≤ maxIfaceLen) :
    Promised names (ensureUnique names) ↔ CollisionFree names := by
  rw [← nthName_inj_iff_collisionFree, ← nodup_ensureUnique_iff]
  refine ⟨Promised.nodup, fun hnodup => ⟨length_ensureUnique names, hnodup, ?_, ?_⟩⟩
  · intro name hname
    obtain ⟨j, hj⟩ := List.mem_iff_getElem?.1 hname
    rw [getElem?_ensureUnique] at hj
    obtain ⟨a, ha, rfl⟩ := Option.map_eq_some_iff.1 hj
    exact length_nthName_le (h a (List.mem_of_getElem? ha)) _
  · intro j name hj hone
    -- A name that is there once came at no earlier position.
    have hzero : (names.take j).count name = 0 := by
      have hlt := count_take_lt_count hj
      omega
    rw [getElem?_ensureUnique, hj, Option.map_some, hzero]
    rfl

theorem promised_twice : Promised ["eth0", "eth0"] (ensureUnique ["eth0", "eth0"]) := by
  refine (promised_iff (by decide)).2 (nthName_inj_iff_collisionFree.1 ?_)
  exact nodup_ensureUnique_iff.1 (by decide +kernel)

/-- The second `a` is named like the `a1` that comes after it. -/
theorem not_promised : ¬∀ names : List String, (∀ name ∈ names, name.toList.length ≤ maxIfaceLen) →
    Promised names (ensureUnique names) := by
  intro hall
  exact absurd (hall ["a", "a", "a1"] (by decide)).nodup (by decide +kernel)

end Returned

end Dnlab.Naming
