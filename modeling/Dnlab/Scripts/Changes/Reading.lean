import Dnlab.Scripts.Changes

/-!
# What the commands read

When the commands can read the files of a tree, and that what they read depends
only on the contents of the files that they look at.

* `mem_glob`, `glob_congr`: a sorted list of files is known by its members;
* `loadFragments_eq_ok`: fragments are loaded if each of them is valid and no
  two of them have one name;
* `releasePaths_cons`, `loadManifests_cons`: a manifest of a later version comes
  before all others.
-/

namespace Dnlab.Changes

/-! ## Paths -/

namespace Path

theorem parts_injective : Function.Injective parts := by
  intro p q h
  cases p <;> cases q <;> simp_all [parts]

theorem isYml_name {s : String} : Text.endsWith (s ++ ".yml") ".yml" = true := by
  rw [Text.endsWith, List.isSuffixOf_iff_suffix, String.toList_append]
  exact List.suffix_append _ _

/-- The stem of a YAML file that has one. -/
theorem stem_of_name {p : Path} {s : String} (h : p.name = s ++ ".yml") (hs : s ≠ "") :
    p.stem = s := by
  have hne : p.name ≠ ".yml" := by
    rw [h]
    intro heq
    have := congrArg (fun s => s.toList.length) heq
    simp only [String.toList_append, List.length_append] at this
    exact hs (String.toList_eq_nil_iff.1 (List.eq_nil_of_length_eq_zero (by omega)))
  rw [stem, if_neg hne, h, Text.removeEnd, if_pos isYml_name, String.toList_append,
    List.length_append, Nat.add_sub_cancel, List.take_left, String.ofList_toList]

/-- A YAML file that has a stem is named by it. -/
theorem name_of_stem {p : Path} (h : p.isYml = true) (hs : p.stem ≠ ".yml") :
    p.name = p.stem ++ ".yml" := by
  have hne : p.name ≠ ".yml" := fun heq => hs (by rw [stem, if_pos heq, heq])
  obtain ⟨l, hl⟩ := List.isSuffixOf_iff_suffix.1 h
  have hname : p.name = String.ofList l ++ ".yml" := by
    rw [← String.toList_inj, String.toList_append, String.toList_ofList, hl]
  have hl' : String.ofList l ≠ "" := fun heq => hne (by rw [hname, heq, String.empty_append])
  rw [stem_of_name hname hl', hname]

/-- Two paths with one name have one stem. -/
theorem stem_congr {p q : Path} (h : p.name = q.name) : p.stem = q.stem := by
  rw [stem, stem, h]

theorem isYml_congr {p q : Path} (h : p.name = q.name) : p.isYml = q.isYml := by
  rw [isYml, isYml, h]

end Path

section Glob

variable {tree tree' : Tree} {f : Path → Bool}

theorem mem_glob {p : Path} : p ∈ glob tree f ↔ p ∈ tree.keys ∧ f p = true := by
  rw [glob, List.mem_insertionSort, List.mem_filter]

theorem nodup_glob : (glob tree f).Nodup :=
  (List.perm_insertionSort _ _).nodup_iff.2 (tree.nodup_keys'.filter _)

theorem pairwise_glob : (glob tree f).Pairwise fun p q => p.parts ≤ q.parts := by
  have : Std.Total fun p q : Path => p.parts ≤ q.parts := ⟨fun p q => le_total _ _⟩
  have : IsTrans Path fun p q => p.parts ≤ q.parts := ⟨fun _ _ _ => le_trans⟩
  exact List.pairwise_insertionSort _ _

/-- Sorted lists of paths with the same members are the same. -/
theorem eq_of_sorted {l l' : List Path} (hl : l.Pairwise fun p q => p.parts ≤ q.parts)
    (hl' : l'.Pairwise fun p q => p.parts ≤ q.parts) (hnd : l.Nodup) (hnd' : l'.Nodup)
    (h : ∀ p, p ∈ l ↔ p ∈ l') : l = l' :=
  ((List.perm_ext_iff_of_nodup hnd hnd').2 h).eq_of_pairwise
    (fun _ _ _ _ hpq hqp => Path.parts_injective (le_antisymm hpq hqp)) hl hl'

theorem glob_congr (h : ∀ p, f p = true → (p ∈ tree.keys ↔ p ∈ tree'.keys)) :
    glob tree f = glob tree' f := by
  refine eq_of_sorted pairwise_glob pairwise_glob nodup_glob nodup_glob fun p => ?_
  rw [mem_glob, mem_glob]
  exact and_congr_left (h p)

theorem glob_eq_nil : glob tree f = [] ↔ ∀ p ∈ tree.keys, f p = false := by
  rw [List.eq_nil_iff_forall_not_mem]
  simp only [mem_glob, not_and, Bool.not_eq_true]

end Glob

section Read

variable {R : Runtime} {tree tree' : Tree}

theorem require_eq_ok {p : Prop} [Decidable p] {message : String} {u : Unit} :
    require p message = .ok u ↔ p := by
  rw [require]
  split <;> simp_all

theorem loadYamlFile_eq_ok {p : Path} {d : Mapping} :
    loadYamlFile R tree p = .ok d ↔
      ∃ text, tree.get? p = some text ∧ R.loadYaml text = .ok (.dict d) := by
  rw [loadYamlFile]
  cases htext : tree.get? p with
  | none => simp
  | some text =>
    cases hload : R.loadYaml text with
    | error e => simp [hload]
    | ok v => cases v <;> simp [hload]

theorem loadYamlFile_congr {p : Path} (h : tree.get? p = tree'.get? p) :
    loadYamlFile R tree p = loadYamlFile R tree' p := by
  rw [loadYamlFile, loadYamlFile, h]

end Read

/-! ## Fragments -/

/-- A file holds a valid fragment. -/
structure Reads (R : Runtime) (tree : Tree) (p : Path) (data : Mapping) : Prop where
  load : loadYamlFile R tree p = .ok data
  valid : problems p.stem data = .ok []

section Fragments

variable {R : Runtime} {tree tree' : Tree}

/-- A fragment stays valid in another file with its name and its content. -/
theorem Reads.move {p q : Path} {data : Mapping} (h : Reads R tree p data)
    (hget : tree'.get? q = tree.get? p) (hname : q.name = p.name) : Reads R tree' q data := by
  refine ⟨?_, Path.stem_congr hname ▸ h.valid⟩
  rw [loadYamlFile_eq_ok, hget]
  exact loadYamlFile_eq_ok.1 h.load

theorem Reads.unique {p : Path} {data data' : Mapping} (h : Reads R tree p data)
    (h' : Reads R tree p data') : data = data' := by
  have := h.load.symm.trans h'.load
  cases this
  rfl

/-- A fragment is loaded without an error if it is valid and its name is new. -/
theorem visit_iff {s s' : Loading} {p : Path} :
    Loading.visit R tree s p = .ok s' ∧ s'.errors = [] ↔
      s.errors = [] ∧ ∃ data, Reads R tree p data ∧ s.seen.get? p.stem = none ∧
        s' = ⟨s.loaded ++ [(p, data)], [], s.seen.set p.stem p⟩ := by
  rw [Loading.visit]
  cases hload : loadYamlFile R tree p with
  | error e =>
    constructor
    · rintro ⟨h, hnil⟩
      cases h
      exact absurd hnil (List.append_ne_nil_of_right_ne_nil _ (List.cons_ne_nil _ _))
    · rintro ⟨-, data, h, -⟩
      cases hload.symm.trans h.load
  | ok data =>
    dsimp only
    rw [ExceptRules.bind_eq_ok]
    constructor
    · rintro ⟨⟨found, hfound, h⟩, hnil⟩
      obtain rfl := ExceptRules.pure_eq_ok.1 h
      rw [Loading.enter] at hnil ⊢
      have hfoundNil : s.errors ++ found = [] := by
        dsimp only at hnil
        split at hnil
        · exact hnil
        · split at hnil
          · exact (List.append_eq_nil_iff.1 hnil).1
          · exact hnil
      obtain ⟨hs, rfl⟩ := List.append_eq_nil_iff.1 hfoundNil
      have hvalid := validateFragment_eq_nil.1 hfound
      have hid := id_of_problems hvalid
      rw [hid] at hnil ⊢
      refine ⟨hs, data, ⟨hload, hvalid⟩, ?_⟩
      dsimp only [Value.str?] at hnil ⊢
      cases hseen : s.seen.get? p.stem with
      | some q =>
        rw [hseen] at hnil
        exact absurd hnil (List.append_ne_nil_of_right_ne_nil _ (List.cons_ne_nil _ _))
      | none => exact ⟨rfl, by rw [hs]; rfl⟩
    · rintro ⟨hs, data', h, hseen, rfl⟩
      obtain rfl : data = data' := by
        cases hload.symm.trans h.load
        rfl
      refine ⟨⟨[], validateFragment_eq_nil.2 h.valid, ?_⟩, rfl⟩
      rw [Loading.enter, id_of_problems h.valid]
      dsimp only [Value.str?]
      rw [hseen, hs]
      rfl

theorem foldlM_visit_iff {paths : List Path} {s s' : Loading} :
    paths.foldlM (Loading.visit R tree) s = .ok s' ∧ s'.errors = [] ↔
      s.errors = [] ∧ (paths.map Path.stem).Nodup ∧ (∀ p ∈ paths, s.seen.get? p.stem = none) ∧
        ∃ l, l.map Prod.fst = paths ∧ (∀ e ∈ l, Reads R tree e.1 e.2) ∧
          s' = ⟨s.loaded ++ l, [], s.seen.update (paths.map fun p => (p.stem, p))⟩ := by
  induction paths generalizing s with
  | nil =>
    rw [List.foldlM_nil, ExceptRules.pure_eq_ok]
    constructor
    · rintro ⟨rfl, hs⟩
      refine ⟨hs, List.nodup_nil, fun _ h => absurd h List.not_mem_nil, [], rfl,
        fun _ h => absurd h List.not_mem_nil, ?_⟩
      rw [List.append_nil, ← hs]
      rfl
    · rintro ⟨hs, -, -, l, hl, -, rfl⟩
      rw [List.map_eq_nil_iff] at hl
      subst hl
      refine ⟨?_, rfl⟩
      rw [List.append_nil, ← hs]
      rfl
  | cons p paths ih =>
    rw [List.foldlM_cons, ExceptRules.bind_eq_ok]
    constructor
    · rintro ⟨⟨s₁, hvisit, hrest⟩, hnil⟩
      obtain ⟨hs₁, hnd, hseen₁, l, rfl, hreads, rfl⟩ := ih.1 ⟨hrest, hnil⟩
      obtain ⟨hs, data, hdata, hseen, rfl⟩ := visit_iff.1 ⟨hvisit, hs₁⟩
      have hnew : ∀ q ∈ l.map Prod.fst, q.stem ≠ p.stem ∧ s.seen.get? q.stem = none := by
        intro q hq
        have hget := hseen₁ q hq
        dsimp only at hget
        rw [Dict.get?_set] at hget
        split at hget
        · cases hget
        · exact ⟨‹_›, hget⟩
      refine ⟨hs, ?_, ?_, (p, data) :: l, rfl, ?_, ?_⟩
      · rw [List.map_cons, List.nodup_cons]
        refine ⟨fun hmem => ?_, hnd⟩
        obtain ⟨q, hq, hstem⟩ := List.mem_map.1 hmem
        exact (hnew q hq).1 hstem
      · exact List.forall_mem_cons.2 ⟨hseen, fun q hq => (hnew q hq).2⟩
      · exact List.forall_mem_cons.2 ⟨hdata, hreads⟩
      · dsimp only
        rw [List.append_assoc]
        rfl
    · rintro ⟨hs, hnd, hseen, l, hl, hreads, rfl⟩
      obtain ⟨e, l, rfl⟩ : ∃ e l', l = e :: l' := by
        cases l with
        | nil => cases hl
        | cons e l => exact ⟨e, l, rfl⟩
      obtain ⟨rfl, rfl⟩ := List.cons.inj hl
      rw [List.map_cons, List.nodup_cons] at hnd
      obtain ⟨hseen, hrest⟩ := List.forall_mem_cons.1 hseen
      obtain ⟨hdata, hreads⟩ := List.forall_mem_cons.1 hreads
      have hvisit := visit_iff.2 ⟨hs, e.2, hdata, hseen, rfl⟩
      refine ⟨⟨_, hvisit.1, (ih.2 ⟨rfl, hnd.2, fun q hq => ?_, l, rfl, hreads, ?_⟩).1⟩, rfl⟩
      · dsimp only
        rw [Dict.get?_set_of_ne _ _ fun h => hnd.1 (List.mem_map.2 ⟨q, hq, h⟩)]
        exact hrest q hq
      · dsimp only
        rw [List.append_assoc]
        rfl

/-- Fragments are loaded if each of them is valid, and no two of them have one name. -/
theorem loadFragments_eq_ok {paths : List Path} {l : List (Path × Mapping)} :
    loadFragments R tree paths = .ok l ↔
      (paths.map Path.stem).Nodup ∧ l.map Prod.fst = paths ∧ ∀ e ∈ l, Reads R tree e.1 e.2 := by
  rw [loadFragments, ExceptRules.bind_eq_ok]
  constructor
  · rintro ⟨s, hfold, h⟩
    obtain ⟨u, hreq, hpure⟩ := ExceptRules.bind_eq_ok.1 h
    obtain ⟨-, hnd, -, l', hl', hreads, rfl⟩ := foldlM_visit_iff.1 ⟨hfold, require_eq_ok.1 hreq⟩
    obtain rfl := ExceptRules.pure_eq_ok.1 hpure
    exact ⟨hnd, hl', hreads⟩
  · rintro ⟨hnd, hl, hreads⟩
    refine ⟨⟨l, [], Dict.update ∅ (paths.map fun p => (p.stem, p))⟩, ?_, ?_⟩
    · exact (foldlM_visit_iff.2 ⟨rfl, hnd, fun _ _ => rfl, l, hl, hreads, rfl⟩).1
    · exact ExceptRules.bind_eq_ok.2 ⟨(), require_eq_ok.2 rfl, rfl⟩

end Fragments

/-! ## Manifests -/

section Manifests

variable {R : Runtime} {tree tree' : Tree}

/-- The release manifests with the keys of their versions. -/
def keyedReleases (tree : Tree) : List (List ℕ × Path) :=
  (glob tree Path.isRelease).filterMap fun p => (versionKey p.stem).toOption.map (·, p)

/-- The order in which releases are listed. -/
abbrev Earlier (a b : List ℕ × Path) : Prop := b.1 < a.1 ∨ b.1 = a.1 ∧ b.2.parts ≤ a.2.parts

theorem toOption_eq_some {ε α : Type*} {x : Except ε α} {a : α} :
    x.toOption = some a ↔ x = .ok a := by
  cases x <;> simp [Except.toOption]

theorem mem_keyedReleases {k : List ℕ} {p : Path} :
    (k, p) ∈ keyedReleases tree ↔
      p ∈ tree.keys ∧ p.isRelease = true ∧ versionKey p.stem = .ok k := by
  rw [keyedReleases, List.mem_filterMap]
  simp only [mem_glob, Option.map_eq_some_iff, toOption_eq_some, Prod.mk.injEq]
  constructor
  · rintro ⟨q, ⟨hq, hrel⟩, k', hk', rfl, rfl⟩
    exact ⟨hq, hrel, hk'⟩
  · exact fun ⟨hp, hrel, hk⟩ => ⟨p, ⟨hp, hrel⟩, k, hk, rfl, rfl⟩

theorem mem_releasePaths {p : Path} :
    p ∈ releasePaths tree ↔
      p ∈ tree.keys ∧ p.isRelease = true ∧ ∃ k, versionKey p.stem = .ok k := by
  rw [releasePaths, List.mem_map]
  constructor
  · rintro ⟨e, he, rfl⟩
    obtain ⟨hp, hrel, hk⟩ := mem_keyedReleases.1 ((List.mem_insertionSort _).1 he)
    exact ⟨hp, hrel, _, hk⟩
  · rintro ⟨hp, hrel, k, hk⟩
    exact ⟨(k, p), (List.mem_insertionSort _).2 (mem_keyedReleases.2 ⟨hp, hrel, hk⟩), rfl⟩

theorem releasePaths_congr (h : ∀ p, p.isRelease = true → (p ∈ tree.keys ↔ p ∈ tree'.keys)) :
    releasePaths tree = releasePaths tree' := by
  rw [releasePaths, releasePaths, glob_congr h]

theorem nodup_releasePaths : (releasePaths tree).Nodup := by
  have hperm : (releasePaths tree).Perm ((keyedReleases tree).map Prod.snd) :=
    (List.perm_insertionSort _ _).map _
  have hsub : ((keyedReleases tree).map Prod.snd).Sublist (glob tree Path.isRelease) := by
    have hmap (l : List Path) : ((l.filterMap fun p => (versionKey p.stem).toOption.map (·, p)).map
        Prod.snd).Sublist l := by
      induction l with
      | nil => exact List.Sublist.refl _
      | cons p l ih =>
        rw [List.filterMap_cons]
        cases (versionKey p.stem).toOption with
        | none => exact ih.cons p
        | some k => exact ih.cons_cons p
    exact hmap _
  exact hperm.nodup_iff.2 (hsub.nodup nodup_glob)

/-- A manifest of a later version comes first. -/
theorem releasePaths_cons {p : Path} {key : List ℕ} (hrel : p.isRelease = true)
    (hkey : versionKey p.stem = .ok key) (hnew : p ∉ tree.keys)
    (hkeys : ∀ q, q.isRelease = true → (q ∈ tree'.keys ↔ q ∈ tree.keys ∨ q = p))
    (hlater : ∀ q ∈ releasePaths tree, ∀ k, versionKey q.stem = .ok k → k < key) :
    releasePaths tree' = p :: releasePaths tree := by
  have hglob : (glob tree' Path.isRelease).Perm (p :: glob tree Path.isRelease) := by
    refine (List.perm_ext_iff_of_nodup nodup_glob (List.nodup_cons.2 ⟨fun h => ?_, nodup_glob⟩)).2
      fun q => ?_
    · exact hnew (mem_glob.1 h).1
    · rw [List.mem_cons, mem_glob, mem_glob]
      constructor
      · rintro ⟨hq, hqrel⟩
        exact ((hkeys q hqrel).1 hq).symm.imp_right fun h => ⟨h, hqrel⟩
      · rintro (rfl | ⟨hq, hqrel⟩)
        · exact ⟨(hkeys q hrel).2 (.inr rfl), hrel⟩
        · exact ⟨(hkeys q hqrel).2 (.inl hq), hqrel⟩
  have hkeyed : (keyedReleases tree').Perm ((key, p) :: keyedReleases tree) := by
    have := hglob.filterMap fun p => (versionKey p.stem).toOption.map (·, p)
    rwa [List.filterMap_cons, hkey] at this
  have hfirst : ∀ e ∈ (keyedReleases tree).insertionSort Earlier, Earlier (key, p) e := by
    intro e he
    have hmem := mem_keyedReleases.1 ((List.mem_insertionSort _).1 he)
    exact .inl (hlater e.2 (mem_releasePaths.2 ⟨hmem.1, hmem.2.1, _, hmem.2.2⟩) _ hmem.2.2)
  have : Std.Total Earlier := ⟨fun a b => by
    rcases lt_trichotomy a.1 b.1 with h | h | h
    · exact .inr (.inl h)
    · exact (le_total a.2.parts b.2.parts).symm.imp (fun h' => .inr ⟨h.symm, h'⟩)
        fun h' => .inr ⟨h, h'⟩
    · exact .inl (.inl h)⟩
  have : IsTrans (List ℕ × Path) Earlier := ⟨fun a b c hab hbc => by
    rcases hab with hab | ⟨hab, hab'⟩ <;> rcases hbc with hbc | ⟨hbc, hbc'⟩
    · exact .inl (hbc.trans hab)
    · exact .inl (hbc ▸ hab)
    · exact .inl (hab ▸ hbc)
    · exact .inr ⟨hbc.trans hab, hbc'.trans hab'⟩⟩
  have hsorted := List.pairwise_insertionSort Earlier (keyedReleases tree)
  have heq : (keyedReleases tree').insertionSort Earlier =
      (key, p) :: (keyedReleases tree).insertionSort Earlier := by
    refine (((List.perm_insertionSort _ _).trans hkeyed).trans
      ((List.perm_insertionSort _ _).symm.cons _)).eq_of_pairwise (fun a b _ _ hab hba => ?_)
      (List.pairwise_insertionSort Earlier _) (List.pairwise_cons.2 ⟨hfirst, hsorted⟩)
    rcases hab with hab | ⟨hab, hab'⟩ <;> rcases hba with hba | ⟨hba, hba'⟩
    · exact absurd hab hba.not_gt
    · exact absurd hab (hba ▸ lt_irrefl _)
    · exact absurd hba (hab ▸ lt_irrefl _)
    · exact Prod.ext hba (Path.parts_injective (le_antisymm hba' hab'))
  exact congrArg (List.map Prod.snd) heq

/-- What comes before all others comes first, wherever it is listed. -/
theorem insertionSort_concat {α : Type*} (r : α → α → Prop) [DecidableRel r] {l : List α} {x : α}
    (h : ∀ a ∈ l, r x a ∧ ¬r a x) : (l ++ [x]).insertionSort r = x :: l.insertionSort r := by
  induction l with
  | nil => rfl
  | cons a l ih =>
    obtain ⟨ha, hl⟩ := List.forall_mem_cons.1 h
    rw [List.cons_append, List.insertionSort_cons, ih hl, List.orderedInsert_of_not_le r _ ha.2,
      List.insertionSort_cons]

/-- The manifests of the releases, with the versions that they are found under. -/
theorem loaded_fst {loaded : List (String × Mapping)}
    (hloaded : (releasePaths tree).mapM (loadManifest R tree) = .ok loaded)
    (hmatch : ∀ p ∈ releasePaths tree, ∀ m, loadYamlFile R tree p = .ok m →
      (m.getD "version" (.str p.stem)).print = p.stem) :
    loaded.map Prod.fst = (releasePaths tree).map Path.stem := by
  have hall := ExceptRules.mapM_eq_ok.1 hloaded
  clear hloaded
  generalize releasePaths tree = paths at hall hmatch
  induction hall with
  | nil => rfl
  | @cons p e paths loaded hp _ ih =>
    obtain ⟨hpath, hpaths⟩ := List.forall_mem_cons.1 hmatch
    obtain ⟨m, hm, h⟩ := ExceptRules.bind_eq_ok.1 hp
    obtain ⟨k, -, h⟩ := ExceptRules.bind_eq_ok.1 h
    obtain rfl := ExceptRules.pure_eq_ok.1 h
    rw [List.map_cons, List.map_cons, ih hpaths]
    exact congrArg (· :: _) (hpath m hm)

theorem nodup_stems : ((releasePaths tree).map Path.stem).Nodup := by
  refine List.Nodup.map_on (fun p hp q hq h => ?_) nodup_releasePaths
  obtain ⟨-, hp, k, hpk⟩ := mem_releasePaths.1 hp
  obtain ⟨-, hq, k', hqk⟩ := mem_releasePaths.1 hq
  have hyml {p : Path} {k : List ℕ} (hp : p.isRelease = true) (hk : versionKey p.stem = .ok k) :
      p = .release (p.stem ++ ".yml") := by
    have hne : p.stem ≠ ".yml" := by
      intro h
      have hnone : (versionKey ".yml").toOption = none := by decide
      rw [← h, toOption_eq_some.2 hk] at hnone
      cases hnone
    cases p with
    | release name =>
      rw [Path.isRelease, Bool.and_eq_true] at hp
      exact congrArg Path.release (Path.name_of_stem hp.2 hne)
    | _ => cases hp
  rw [hyml hp hpk, hyml hq hqk, h]

/-- The manifests by their versions, another one added. -/
def withExtra (loaded : List (String × Mapping)) :
    Option Mapping → Except String (Dict String Mapping)
  | none => .ok (Dict.ofList loaded)
  | some manifest => do
    let version ← manifest.item "version"
    pure ((Dict.ofList loaded).set version.print manifest)

/-- A manifest with the key of the version that it is found under. -/
def keyedManifest (e : String × Mapping) : Except String (List ℕ × Mapping) := do
  let key ← versionKey e.1
  pure (key, e.2)

theorem loadManifests_eq_ok {extra : Option Mapping} {ms : List Mapping} :
    loadManifests R tree extra = .ok ms ↔
      ∃ loaded, (releasePaths tree).mapM (loadManifest R tree) = .ok loaded ∧
        ∃ manifests, withExtra loaded extra = .ok manifests ∧
          ∃ keyed, manifests.items.mapM keyedManifest = .ok keyed ∧
            (keyed.insertionSort fun a b => b.1 ≤ a.1).map Prod.snd = ms := by
  rw [loadManifests, ExceptRules.bind_eq_ok]
  refine exists_congr fun loaded => and_congr_right fun _ => ?_
  cases extra with
  | none =>
    simp only [withExtra, ExceptRules.bind_eq_ok, ExceptRules.pure_eq_ok, Except.ok.injEq]
    rfl
  | some manifest =>
    simp only [withExtra, ExceptRules.bind_eq_ok, ExceptRules.pure_eq_ok]
    constructor
    · rintro ⟨version, hversion, manifests, rfl, keyed, hkeyed, hms⟩
      exact ⟨_, ⟨version, hversion, rfl⟩, keyed, hkeyed, hms⟩
    · rintro ⟨_, ⟨version, hversion, rfl⟩, keyed, hkeyed, hms⟩
      exact ⟨version, hversion, _, rfl, keyed, hkeyed, hms⟩

/-- With a manifest of a later version in place, the manifests are those that they would be with
    it added. -/
theorem loadManifests_cons {p : Path} {key : List ℕ} {version : String} {manifest : Mapping}
    {ms : List Mapping} (hpaths : releasePaths tree' = p :: releasePaths tree)
    (hsame : ∀ q ∈ releasePaths tree, tree'.get? q = tree.get? q)
    (hload : loadYamlFile R tree' p = .ok manifest)
    (hversion : manifest.item "version" = .ok (.str version)) (hkey : versionKey version = .ok key)
    (hmatch : ∀ q ∈ releasePaths tree, ∀ m, loadYamlFile R tree q = .ok m →
      (m.getD "version" (.str q.stem)).print = q.stem)
    (hlater : ∀ q ∈ releasePaths tree, ∀ k, versionKey q.stem = .ok k → k < key)
    (h : loadManifests R tree (some manifest) = .ok ms) (extra : Option Mapping)
    (hextra : extra = none ∨ extra = some manifest) : loadManifests R tree' extra = .ok ms := by
  obtain ⟨loaded, hloaded, manifests, hadd, keyed, hkeyed, rfl⟩ := loadManifests_eq_ok.1 h
  rw [withExtra, hversion] at hadd
  have hfst := loaded_fst hloaded hmatch
  have hnew : version ∉ loaded.map Prod.fst := by
    rw [hfst]
    intro hmem
    obtain ⟨q, hq, rfl⟩ := List.mem_map.1 hmem
    exact lt_irrefl _ (hlater q hq key hkey)
  have hnd : (loaded.map Prod.fst).Nodup := hfst ▸ nodup_stems
  have hitems : (Dict.ofList loaded).items = loaded := Dict.items_ofList_of_nodup hnd
  obtain rfl : (Dict.ofList loaded).set version manifest = manifests := by
    cases hadd
    rfl
  rw [Dict.items_set_of_notMem _ (by rwa [Dict.mem_keys_ofList]), hitems, List.mapM_append,
    ExceptRules.bind_eq_ok] at hkeyed
  obtain ⟨old, hold, hkeyed⟩ := hkeyed
  have hlast : keyed = old ++ [(key, manifest)] := by
    rw [List.mapM_cons, keyedManifest, hkey] at hkeyed
    cases hkeyed
    rfl
  have hbefore : ∀ e ∈ old, e.1 < key := by
    intro e he
    obtain ⟨e', he', hk⟩ := ExceptRules.forall₂_exists (ExceptRules.mapM_eq_ok.1 hold) he
    obtain ⟨k, hkey', heq⟩ := ExceptRules.bind_eq_ok.1 hk
    obtain rfl := ExceptRules.pure_eq_ok.1 heq
    have hmem : e'.1 ∈ (releasePaths tree).map Path.stem := hfst ▸ List.mem_map_of_mem he'
    obtain ⟨q, hq, hstem⟩ := List.mem_map.1 hmem
    exact hlater q hq k (hstem ▸ hkey')
  have hsort : (keyed.insertionSort fun a b => b.1 ≤ a.1) =
      ((key, manifest) :: old).insertionSort fun a b => b.1 ≤ a.1 := by
    rw [hlast, insertionSort_concat, List.insertionSort_cons_of_forall_rel]
    · exact fun e he => (hbefore e he).le
    · exact fun e he => ⟨(hbefore e he).le, not_le.2 (hbefore e he)⟩
  -- In the other tree, the manifest is the first that is loaded.
  have hloaded' : (releasePaths tree').mapM (loadManifest R tree') =
      .ok ((version, manifest) :: loaded) := by
    have hfirst : loadManifest R tree' p = .ok (version, manifest) := by
      have hget : manifest.getD "version" (.str p.stem) = .str version := by
        rw [Mapping.item] at hversion
        rw [Mapping.getD]
        split at hversion
        · rename_i v hv
          cases hversion
          rw [hv, Option.getD_some]
        · cases hversion
      rw [loadManifest, hload]
      show (do
        let _ ← versionKey (manifest.getD "version" (.str p.stem)).print
        pure ((manifest.getD "version" (.str p.stem)).print, manifest)) = _
      rw [hget, Value.print, hkey]
      rfl
    have hrest : (releasePaths tree).mapM (loadManifest R tree') = .ok loaded := by
      have hall := (List.forall₂_and_left _ _).2 ⟨hsame, ExceptRules.mapM_eq_ok.1 hloaded⟩
      refine ExceptRules.mapM_eq_ok.2 (hall.imp fun q e he => ?_)
      rw [← he.2, loadManifest, loadManifest, loadYamlFile_congr he.1]
    rw [hpaths, List.mapM_cons, hfirst, hrest]
    rfl
  have hitems' : (Dict.ofList ((version, manifest) :: loaded)).items =
      (version, manifest) :: loaded :=
    Dict.items_ofList_of_nodup (List.nodup_cons.2 ⟨hnew, hnd⟩)
  refine loadManifests_eq_ok.2 ⟨_, hloaded', Dict.ofList ((version, manifest) :: loaded), ?_,
    (key, manifest) :: old, ?_, by rw [hsort]⟩
  · obtain rfl | rfl := hextra
    · rfl
    · rw [withExtra, hversion]
      have hset : (Dict.ofList ((version, manifest) :: loaded)).set version manifest =
          Dict.ofList ((version, manifest) :: loaded) :=
        Dict.set_of_get? (Dict.get?_eq_some_iff.2 (by rw [hitems']; exact List.mem_cons_self))
      exact congrArg Except.ok hset
  · rw [hitems', List.mapM_cons, keyedManifest, hkey, hold]
    rfl

end Manifests

end Dnlab.Changes
