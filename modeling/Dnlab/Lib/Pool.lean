import Mathlib.Data.Finset.Card
import Mathlib.Order.Interval.Finset.Nat

/-!
# A pool of numbers

Requests are served one after the other with the numbers `low`, …, `high` that
are not taken. A request may come with a preference, which is met if that number
is free; otherwise it gets the lowest free one. What is handed out is always
free and never handed out twice (`mem_of_takeAll`, `nodup_of_takeAll`).

A number that a later request prefers can be lost to an earlier one without a
preference. Such a request gets the lowest free number, so it passes over `p`
exactly if fewer requests of its kind came before than there are numbers below
`p` to give them. Likewise for a number that somebody else has although it is
not known to be used (`hidden`). `takeAll_kept_iff` says that all preferences
are met and nobody else's numbers handed out if and only if no hidden number is
preferred and each of these numbers is passed over (`Undisturbed`).
-/

namespace Pool

/-- The lowest number of the pool that is not taken. -/
def firstFree (low high : ℕ) (taken : List ℕ) : Option ℕ :=
  (List.range' low (high + 1 - low)).find? fun q => q ∉ taken

/-- Serve one request: with what it prefers, if that is in the pool and free. -/
def take (low high : ℕ) (taken : List ℕ) (preferred : Option ℕ) : Option ℕ :=
  match preferred with
  | some p => if low ≤ p ∧ p ≤ high ∧ p ∉ taken then some p else firstFree low high taken
  | none => firstFree low high taken

/-- Serve the requests in their order, where the numbers `given` have been handed out before. -/
def takeAll (low high : ℕ) (used : List ℕ) : (given : List ℕ) → List (Option ℕ) → Option (List ℕ)
  | _, [] => some []
  | given, hint :: hints => do
    let q ← take low high (used ++ given) hint
    let rest ← takeAll low high used (q :: given) hints
    pure (q :: rest)

/-- What a request prefers, if it is in the pool and not one of the numbers of `others`. -/
def want (low high : ℕ) (others : List ℕ) (hint : Option ℕ) : Option ℕ :=
  hint.filter fun p => low ≤ p ∧ p ≤ high ∧ p ∉ others

/-- The numbers below `p` that are neither used nor `kept`. -/
def room (low : ℕ) (used kept : List ℕ) (p : ℕ) : Finset ℕ :=
  (Finset.Ico low p).filter fun q => q ∉ used ∧ q ∉ kept

/-- The numbers of the pool that others have, although they are not among those known as used. -/
def hidden (low high : ℕ) (used others : List ℕ) : List ℕ :=
  others.filter fun p => low ≤ p ∧ p ≤ high ∧ p ∉ used

/-- Every preference can be met and every `reserved` number is left alone: no preference is used or
    preferred before, and at each request without one, each number that is reserved or preferred
    later has more room below it than such requests came before; `kept` are the preferences of the
    requests before, and `fresh` counts those without. -/
def Undisturbed (low : ℕ) (used reserved : List ℕ) :
    (kept : List ℕ) → (fresh : ℕ) → List (Option ℕ) → Prop
  | _, _, [] => True
  | kept, fresh, some p :: wants =>
    p ∉ used ∧ p ∉ kept ∧ Undisturbed low used reserved (p :: kept) fresh wants
  | kept, fresh, none :: wants =>
    (∀ p, some p ∈ wants ∨ p ∈ reserved → fresh < (room low used kept p).card) ∧
      Undisturbed low used reserved kept (fresh + 1) wants

/-- A number is the one that the request wants, if it wants one. -/
def Meets (wanted : Option ℕ) (q : ℕ) : Prop := ∀ p, wanted = some p → q = p

variable {low high q : ℕ} {taken used others given kept : List ℕ} {hint : Option ℕ}
  {hints : List (Option ℕ)} {ports : List ℕ}

theorem firstFree_eq_some : firstFree low high taken = some q ↔
    (low ≤ q ∧ q ≤ high ∧ q ∉ taken) ∧ ∀ x, low ≤ x → x < q → x ∈ taken := by
  rw [firstFree, List.find?_range'_eq_some]
  simp only [List.mem_range'_1, decide_eq_true_eq, Bool.not_eq_true', decide_eq_false_iff_not,
    not_not]
  constructor
  · rintro ⟨hfree, hmem, hlow⟩
    exact ⟨⟨hmem.1, by omega, hfree⟩, hlow⟩
  · rintro ⟨⟨hlo, hhi, hfree⟩, hlow⟩
    exact ⟨hfree, ⟨hlo, by omega⟩, hlow⟩

theorem free_of_take (h : take low high taken hint = some q) : low ≤ q ∧ q ≤ high ∧ q ∉ taken := by
  rcases hint with _ | p
  · exact (firstFree_eq_some.1 h).1
  · rw [take] at h
    split_ifs at h with hp
    · cases h
      exact hp
    · exact (firstFree_eq_some.1 h).1

/-- A request that wants a number gets it if and only if it is free. -/
theorem take_eq_iff_of_want {p : ℕ} (hwant : want low high others hint = some p)
    (h : take low high taken hint = some q) : q = p ↔ p ∉ taken := by
  obtain ⟨rfl, hp⟩ := Option.filter_eq_some_iff.1 hwant
  rw [decide_eq_true_eq] at hp
  refine ⟨fun hq => hq ▸ (free_of_take h).2.2, fun hfree => ?_⟩
  rw [take, if_pos ⟨hp.1, hp.2.1, hfree⟩] at h
  exact (Option.some.inj h).symm

/-- A request that wants nothing gets the lowest free number: what it prefers is not in the pool or
    used by others. -/
theorem take_of_want_none (hhint : ∀ p, hint = some p → p ∉ hidden low high taken others)
    (hwant : want low high others hint = none) :
    take low high taken hint = firstFree low high taken := by
  rcases hint with _ | p
  · rfl
  · -- a number that is in the pool and free, but somebody else's, would be hidden
    have hp := Option.filter_eq_none_iff.1 hwant p rfl
    rw [decide_eq_true_eq] at hp
    refine if_neg fun hfree => hp ⟨hfree.1, hfree.2.1, fun hmem => hhint p rfl ?_⟩
    rw [hidden, List.mem_filter, decide_eq_true_eq]
    exact ⟨hmem, hfree⟩

theorem takeAll_cons (h : takeAll low high used given (hint :: hints) = some ports) :
    ∃ q rest, ports = q :: rest ∧ take low high (used ++ given) hint = some q ∧
      takeAll low high used (q :: given) hints = some rest := by
  obtain ⟨q, hq, h⟩ := Option.bind_eq_some_iff.1 h
  obtain ⟨rest, hrest, h⟩ := Option.bind_eq_some_iff.1 h
  exact ⟨q, rest, (Option.some.inj h).symm, hq, hrest⟩

theorem take_congr {taken' : List ℕ} (h : ∀ q, q ∈ taken ↔ q ∈ taken') (hint : Option ℕ) :
    take low high taken hint = take low high taken' hint := by
  have hfirst : firstFree low high taken = firstFree low high taken' := by
    rw [firstFree, firstFree]
    simp only [h]
  rcases hint with _ | p
  · exact hfirst
  · rw [take, take, hfirst]
    simp only [h]

/-- In which order the numbers were given is of no account. -/
theorem takeAll_congr {given' : List ℕ} (h : ∀ q, q ∈ given ↔ q ∈ given') (hints : List (Option ℕ)) :
    takeAll low high used given hints = takeAll low high used given' hints := by
  induction hints generalizing given given' with
  | nil => rfl
  | cons hint hints ih =>
    have hused (q : ℕ) : q ∈ used ++ given ↔ q ∈ used ++ given' := by
      rw [List.mem_append, List.mem_append, h]
    rw [takeAll, takeAll, take_congr hused]
    refine congrArg _ (funext fun q => ?_)
    have hgiven (x : ℕ) : x ∈ q :: given ↔ x ∈ q :: given' := by
      rw [List.mem_cons, List.mem_cons, h]
    rw [ih hgiven]

/-- Requests are served in two groups. -/
theorem takeAll_append {hints' : List (Option ℕ)} {ports' : List ℕ}
    (h : takeAll low high used given hints = some ports)
    (h' : takeAll low high used (ports ++ given) hints' = some ports') :
    takeAll low high used given (hints ++ hints') = some (ports ++ ports') := by
  induction hints generalizing given ports with
  | nil =>
    cases h
    exact h'
  | cons hint hints ih =>
    obtain ⟨q, rest, rfl, hq, hrest⟩ := takeAll_cons h
    rw [List.cons_append, List.cons_append, takeAll, hq, Option.bind_eq_bind, Option.bind_some,
      ih hrest ((takeAll_congr (fun x => by simp only [List.mem_append, List.mem_cons]; tauto)
        hints').trans h')]
    rfl

/-- Whatever is handed out is in the pool, not used, and not handed out before. -/
theorem mem_of_takeAll (h : takeAll low high used given hints = some ports) (hq : q ∈ ports) :
    (low ≤ q ∧ q ≤ high) ∧ q ∉ used ∧ q ∉ given := by
  induction hints generalizing given ports with
  | nil =>
    cases h
    exact absurd hq List.not_mem_nil
  | cons hint hints ih =>
    obtain ⟨p, rest, rfl, hp, hrest⟩ := takeAll_cons h
    rcases List.mem_cons.1 hq with rfl | hq
    · obtain ⟨hlow, hhigh, hfree⟩ := free_of_take hp
      rw [List.mem_append, not_or] at hfree
      exact ⟨⟨hlow, hhigh⟩, hfree⟩
    · obtain ⟨hrange, hused, hgiven⟩ := ih hrest hq
      exact ⟨hrange, hused, fun hmem => hgiven (List.mem_cons_of_mem _ hmem)⟩

theorem nodup_of_takeAll (h : takeAll low high used given hints = some ports) : ports.Nodup := by
  induction hints generalizing given ports with
  | nil =>
    cases h
    exact List.nodup_nil
  | cons hint hints ih =>
    obtain ⟨p, rest, rfl, _, hrest⟩ := takeAll_cons h
    exact List.nodup_cons.2
      ⟨fun hmem => (mem_of_takeAll hrest hmem).2.2 List.mem_cons_self, ih hrest⟩

/-- Requests that get what they want get it at their place. -/
theorem mem_of_meets {wants : List (Option ℕ)} {p : ℕ} (h : List.Forall₂ Meets wants ports)
    (hp : some p ∈ wants) : p ∈ ports := by
  induction h with
  | nil => exact absurd hp List.not_mem_nil
  | cons hq _ ih =>
    rcases List.mem_cons.1 hp with hp | hp
    · exact hq p hp.symm ▸ List.mem_cons_self
    · exact List.mem_cons_of_mem _ (ih hp)

/-- What the requests without a preference have been given so far, `F`: besides what was `kept`,
    that is all that was given. -/
structure Served (used given kept : List ℕ) (F : Finset ℕ) (low : ℕ) : Prop where
  mem_given : ∀ q, q ∈ given ↔ q ∈ kept ∨ q ∈ F
  low_le : ∀ q ∈ F, low ≤ q
  unused : ∀ q ∈ F, q ∉ used
  notKept : ∀ q ∈ F, q ∉ kept

/-- The lowest free number is below `p` if and only if there is more room below `p` than was given
    to requests without a preference, if those got numbers below `p`. -/
theorem firstFree_lt_iff {F : Finset ℕ} {p : ℕ} (hF : Served used given kept F low)
    (hlt : ∀ q ∈ F, q < p) (h : firstFree low high (used ++ given) = some q) :
    q < p ↔ F.card < (room low used kept p).card := by
  obtain ⟨⟨hlow, _, hfree⟩, hbelow⟩ := firstFree_eq_some.1 h
  rw [List.mem_append, not_or, hF.mem_given, not_or] at hfree
  have hsub : F ⊆ room low used kept p := fun x hx => by
    rw [room, Finset.mem_filter, Finset.mem_Ico]
    exact ⟨⟨hF.low_le x hx, hlt x hx⟩, hF.unused x hx, hF.notKept x hx⟩
  constructor
  · intro hq
    refine Finset.card_lt_card (Finset.ssubset_iff_of_subset hsub |>.2 ⟨q, ?_, hfree.2.2⟩)
    rw [room, Finset.mem_filter, Finset.mem_Ico]
    exact ⟨⟨hlow, hq⟩, hfree.1, hfree.2.1⟩
  · -- there is a number below `p` that was not given, and `q` is at most that
    intro hcard
    obtain ⟨x, hx, hxF⟩ := Finset.exists_mem_notMem_of_card_lt_card hcard
    rw [room, Finset.mem_filter, Finset.mem_Ico] at hx
    by_contra hq
    have hmem := hbelow x hx.1.1 (by omega)
    rw [List.mem_append, hF.mem_given] at hmem
    rcases hmem with hmem | hmem | hmem
    · exact hx.2.1 hmem
    · exact hx.2.2 hmem
    · exact hxF hmem

theorem Served.give {F : Finset ℕ} (hF : Served used given kept F low)
    (h : firstFree low high (used ++ given) = some q) :
    q ∉ F ∧ Served used (q :: given) kept (insert q F) low := by
  obtain ⟨⟨hlow, _, hfree⟩, _⟩ := firstFree_eq_some.1 h
  rw [List.mem_append, not_or, hF.mem_given, not_or] at hfree
  refine ⟨hfree.2.2, fun x => ?_, fun x hx => ?_, fun x hx => ?_, fun x hx => ?_⟩
  · rw [List.mem_cons, hF.mem_given, Finset.mem_insert]
    tauto
  all_goals rcases Finset.mem_insert.1 hx with rfl | hx
  · exact hlow
  · exact hF.low_le x hx
  · exact hfree.1
  · exact hF.unused x hx
  · exact hfree.2.1
  · exact hF.notKept x hx

theorem Served.keep {F : Finset ℕ} {p : ℕ} (hF : Served used given kept F low) (hp : p ∉ F) :
    Served used (p :: given) (p :: kept) F low where
  mem_given x := by
    rw [List.mem_cons, List.mem_cons, hF.mem_given, or_assoc]
  low_le := hF.low_le
  unused := hF.unused
  notKept x hx := by
    rw [List.mem_cons, not_or]
    exact ⟨fun h => hp (h ▸ hx), hF.notKept x hx⟩

theorem mem_hidden {p : ℕ} :
    p ∈ hidden low high used others ↔ p ∈ others ∧ low ≤ p ∧ p ≤ high ∧ p ∉ used := by
  rw [hidden, List.mem_filter, decide_eq_true_eq]

/-- What is handed out is hidden if and only if others have it. -/
theorem mem_hidden_of_takeAll (h : takeAll low high used given hints = some ports) (hq : q ∈ ports) :
    q ∈ hidden low high used others ↔ q ∈ others := by
  obtain ⟨⟨hlow, hhigh⟩, hused, -⟩ := mem_of_takeAll h hq
  rw [mem_hidden]
  exact ⟨And.left, fun hq => ⟨hq, hlow, hhigh, hused⟩⟩

/-- A request whose preference is hidden gets it. -/
theorem notMem_hidden_of_take {p : ℕ} (hgiven : ∀ p ∈ hidden low high used others, p ∉ given)
    (hq : take low high (used ++ given) (some p) = some q) (hfine : q ∉ hidden low high used others) :
    p ∉ hidden low high used others := by
  intro hp
  obtain ⟨-, hlow, hhigh, hused⟩ := mem_hidden.1 hp
  have hfree : p ∉ used ++ given := fun hmem =>
    (List.mem_append.1 hmem).elim hused (hgiven p hp)
  rw [take, if_pos ⟨hlow, hhigh, hfree⟩] at hq
  exact hfine (Option.some.inj hq ▸ hp)

/-- A request without a wish is given the lowest free number, so it leaves the numbers ahead alone,
    those that are wanted later and the hidden ones, if and only if there is room below them. -/
theorem below_iff {wants : List (Option ℕ)} {F : Finset ℕ} (hF : Served used given kept F low)
    (hlt : ∀ p, some p ∈ wants ∨ p ∈ hidden low high used others → ∀ q ∈ F, q < p)
    (h : firstFree low high (used ++ given) = some q) :
    (∀ p, some p ∈ wants ∨ p ∈ hidden low high used others → q < p) ↔
      ∀ p, some p ∈ wants ∨ p ∈ hidden low high used others →
        F.card < (room low used kept p).card :=
  forall₂_congr fun p hp => firstFree_lt_iff hF (hlt p hp) h

/-- A request gets what it wants unless that is used or was kept, if it was not given to a request
    without a preference. -/
theorem Served.meets_iff {F : Finset ℕ} {p : ℕ} (hF : Served used given kept F low) (hp : p ∉ F)
    (hwant : want low high others hint = some p) (h : take low high (used ++ given) hint = some q) :
    Meets (some p) q ↔ p ∉ used ∧ p ∉ kept := by
  have htake := take_eq_iff_of_want hwant h
  rw [List.mem_append, not_or, hF.mem_given, not_or] at htake
  constructor
  · intro hmeets
    have hfree := htake.1 (hmeets p rfl)
    exact ⟨hfree.1, hfree.2.1⟩
  · intro hfree p' hp'
    cases hp'
    exact htake.2 ⟨hfree.1, hfree.2, hp⟩

/-- When later requests get what they want, the lowest free number is below that; and it is below the
    hidden numbers, unless it is one. -/
theorem lt_of_meets (h : firstFree low high (used ++ given) = some q)
    (hgiven : ∀ p ∈ hidden low high used others, p ∉ given)
    (hfine : q ∉ hidden low high used others)
    (hrest : takeAll low high used (q :: given) hints = some ports)
    (hkept : List.Forall₂ Meets (hints.map (want low high others)) ports) (p : ℕ)
    (hp : some p ∈ hints.map (want low high others) ∨ p ∈ hidden low high used others) : q < p := by
  have hfree : p ≠ q ∧ low ≤ p ∧ p ∉ used ++ given := by
    rcases hp with hp | hp
    · obtain ⟨⟨hlow, -⟩, hused, hnew⟩ := mem_of_takeAll hrest (mem_of_meets hkept hp)
      rw [List.mem_cons, not_or] at hnew
      exact ⟨hnew.1, hlow, fun hmem => (List.mem_append.1 hmem).elim hused hnew.2⟩
    · obtain ⟨-, hlow, -, hused⟩ := mem_hidden.1 hp
      exact ⟨fun heq => hfine (heq ▸ hp), hlow, fun hmem =>
        (List.mem_append.1 hmem).elim hused (hgiven p hp)⟩
  have hnot := mt ((firstFree_eq_some.1 h).2 p hfree.2.1) hfree.2.2
  have hne := hfree.1
  omega

/-- All wishes are met and nobody else's number is handed out if and only if no hidden number is
    preferred and no request without a wish gets in the way. -/
theorem takeAll_kept_iff_of_served {F : Finset ℕ} (hF : Served used given kept F low)
    (hgiven : ∀ p ∈ hidden low high used others, p ∉ given)
    (hlt : ∀ p, some p ∈ hints.map (want low high others) ∨ p ∈ hidden low high used others →
      ∀ q ∈ F, q < p) (h : takeAll low high used given hints = some ports) :
    (List.Forall₂ Meets (hints.map (want low high others)) ports ∧
        ∀ q ∈ ports, q ∉ hidden low high used others) ↔
      (∀ p, some p ∈ hints → p ∉ hidden low high used others) ∧
        Undisturbed low used (hidden low high used others) kept F.card
          (hints.map (want low high others)) := by
  induction hints generalizing given kept F ports with
  | nil =>
    cases h
    exact iff_of_true ⟨.nil, by simp⟩ ⟨by simp, trivial⟩
  | cons hint hints ih =>
    obtain ⟨q, rest, rfl, hq, hrest⟩ := takeAll_cons h
    have hlt' : ∀ p, some p ∈ hints.map (want low high others) ∨ p ∈ hidden low high used others →
        ∀ q ∈ F, q < p := fun p hp => hlt p (hp.imp_left (List.mem_cons_of_mem _))
    have hgiven' : q ∉ hidden low high used others →
        ∀ p ∈ hidden low high used others, p ∉ q :: given := by
      intro hfine p hp hmem
      rcases List.mem_cons.1 hmem with rfl | hmem
      · exact hfine hp
      · exact hgiven p hp hmem
    have hhints : (∀ p, some p ∈ hint :: hints → p ∉ hidden low high used others) ↔
        (∀ p, hint = some p → p ∉ hidden low high used others) ∧
          ∀ p, some p ∈ hints → p ∉ hidden low high used others := by
      simp only [List.mem_cons, or_imp, forall_and, eq_comm]
    rw [List.map_cons, List.forall₂_cons, List.forall_mem_cons, hhints]
    cases hwant : want low high others hint with
    | some p =>
      -- it gets `p` unless that is used or kept: what the others got is below `p`
      have hpF : p ∉ F := fun hp => lt_irrefl p (hlt p (.inl (hwant ▸ List.mem_cons_self)) p hp)
      have hmeets := hF.meets_iff hpF hwant hq
      obtain ⟨rfl, hp⟩ := Option.filter_eq_some_iff.1 hwant
      rw [decide_eq_true_eq] at hp
      have hfine : p ∉ hidden low high used others := fun hmem => hp.2.2 (mem_hidden.1 hmem).1
      have hrec (hqp : q = p) := ih (hF.keep hpF) (hqp ▸ hgiven' (hqp ▸ hfine)) hlt' (hqp ▸ hrest)
      rw [Undisturbed]
      constructor
      · rintro ⟨⟨hm, hkept⟩, -, hrestfine⟩
        obtain ⟨hhints, hundisturbed⟩ := (hrec (hm p rfl)).1 ⟨hkept, hrestfine⟩
        obtain ⟨hused, hnotKept⟩ := hmeets.1 hm
        refine ⟨⟨fun p' hp' => ?_, hhints⟩, hused, hnotKept, hundisturbed⟩
        obtain rfl := Option.some.inj hp'
        exact hfine
      · rintro ⟨⟨-, hhints⟩, hused, hnotKept, hundisturbed⟩
        have hm := hmeets.2 ⟨hused, hnotKept⟩
        obtain ⟨hkept, hrestfine⟩ := (hrec (hm p rfl)).2 ⟨hhints, hundisturbed⟩
        exact ⟨⟨hm, hkept⟩, hm p rfl ▸ hfine, hrestfine⟩
    | none =>
      -- it gets the lowest free number, which has to be below all that is wanted later or hidden
      have hfirst (hhint : ∀ p, hint = some p → p ∉ hidden low high used others) :
          firstFree low high (used ++ given) = some q := by
        refine (take_of_want_none (fun p hp hmem => hhint p hp ?_) hwant).symm.trans hq
        obtain ⟨hothers, hlow, hhigh, hfree⟩ := mem_hidden.1 hmem
        exact mem_hidden.2 ⟨hothers, hlow, hhigh, fun h => hfree (List.mem_append_left _ h)⟩
      have hrec (hfree : firstFree low high (used ++ given) = some q)
          (hfine : q ∉ hidden low high used others)
          (hbelow : ∀ p, some p ∈ hints.map (want low high others) ∨
            p ∈ hidden low high used others → q < p) := by
        have hiff := ih (hF.give hfree).2 (hgiven' hfine) (fun p hp x hx =>
          (Finset.mem_insert.1 hx).elim (fun hx => hx ▸ hbelow p hp) (hlt' p hp x)) hrest
        rwa [Finset.card_insert_of_notMem (hF.give hfree).1] at hiff
      rw [Undisturbed]
      constructor
      · rintro ⟨⟨-, hkept⟩, hfine, hrestfine⟩
        have hhint : ∀ p, hint = some p → p ∉ hidden low high used others := by
          rintro p rfl
          exact notMem_hidden_of_take hgiven hq hfine
        have hfree := hfirst hhint
        have hbelow := lt_of_meets hfree hgiven hfine hrest hkept
        obtain ⟨hhints, hundisturbed⟩ := (hrec hfree hfine hbelow).1 ⟨hkept, hrestfine⟩
        exact ⟨⟨hhint, hhints⟩, (below_iff hF hlt' hfree).1 hbelow, hundisturbed⟩
      · rintro ⟨⟨hhint, hhints⟩, hroom, hundisturbed⟩
        have hfree := hfirst hhint
        have hbelow := (below_iff hF hlt' hfree).2 hroom
        have hfine : q ∉ hidden low high used others := fun hq =>
          lt_irrefl q (hbelow q (.inr hq))
        obtain ⟨hkept, hrestfine⟩ := (hrec hfree hfine hbelow).2 ⟨hhints, hundisturbed⟩
        exact ⟨⟨nofun, hkept⟩, hfine, hrestfine⟩

/-- All wishes are met and nobody else's number is handed out if and only if no hidden number is
    preferred and no request without a wish gets in the way. -/
theorem takeAll_kept_iff (others : List ℕ)
    (h : takeAll low high used [] hints = some ports) :
    (List.Forall₂ Meets (hints.map (want low high others)) ports ∧ ∀ q ∈ ports, q ∉ others) ↔
      (∀ p, some p ∈ hints → p ∉ hidden low high used others) ∧
        Undisturbed low used (hidden low high used others) [] 0
          (hints.map (want low high others)) := by
  have hothers : (∀ q ∈ ports, q ∉ others) ↔ ∀ q ∈ ports, q ∉ hidden low high used others :=
    forall₂_congr fun q hq => not_congr (mem_hidden_of_takeAll h hq).symm
  rw [hothers]
  exact takeAll_kept_iff_of_served (F := ∅) ⟨by simp, by simp, by simp, by simp⟩ (by simp)
    (by simp) h

end Pool
