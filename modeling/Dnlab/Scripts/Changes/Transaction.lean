import Dnlab.Scripts.Changes.Reading

/-!
# The transaction of a release

What the file operations of a release do to the tree. Outside its temporary
directory, a release that ends normally puts the archived fragments and the
outputs in place, and deletes the pending fragments and its marker
(`get?_ops`).
-/

namespace Dnlab.Changes

/-! ## Operations -/

/-- The files that an operation may change. -/
def Op.touched : Op → List Path
  | .create p | .fill p _ | .unlink p => [p]
  | .rename source target => [source, target]

theorem applyAll_append (ops ops' : List Op) (tree : Tree) :
    applyAll (ops ++ ops') tree = applyAll ops' (applyAll ops tree) :=
  List.foldl_append

/-- An operation leaves the files alone that it does not name. -/
theorem get?_apply {op : Op} {tree : Tree} {p : Path} (h : p ∉ op.touched) :
    (op.apply tree).get? p = tree.get? p := by
  cases op with
  | create q => exact Dict.get?_set_of_ne _ _ fun hp => h (List.mem_singleton.2 hp)
  | fill q content => exact Dict.get?_set_of_ne _ _ fun hp => h (List.mem_singleton.2 hp)
  | unlink q => exact Dict.get?_erase_of_ne _ fun hp => h (List.mem_singleton.2 hp)
  | rename source target =>
    rw [Op.touched, List.mem_pair, not_or] at h
    rw [Op.apply]
    split
    · rw [Dict.get?_set_of_ne _ _ h.2, Dict.get?_erase_of_ne _ h.1]
    · rfl

theorem get?_applyAll {ops : List Op} {tree : Tree} {p : Path} (h : ∀ op ∈ ops, p ∉ op.touched) :
    (applyAll ops tree).get? p = tree.get? p := by
  induction ops generalizing tree with
  | nil => rfl
  | cons op ops ih =>
    obtain ⟨hop, hops⟩ := List.forall_mem_cons.1 h
    exact (ih hops).trans (get?_apply hop)

/-- What is written has been set. -/
theorem applyAll_writes (l : List (Path × String)) (tree : Tree) :
    applyAll (l.flatMap fun e => writeText e.1 e.2) tree = tree.update l := by
  induction l generalizing tree with
  | nil => rfl
  | cons e l ih =>
    rw [List.flatMap_cons, applyAll_append, ih]
    exact congrArg (Dict.update · l) (Dict.set_set tree e.1 "" e.2)

theorem touched_writes {l : List (Path × String)} {op : Op} {p : Path}
    (hop : op ∈ l.flatMap fun e => writeText e.1 e.2) (hp : p ∈ op.touched) :
    p ∈ l.map Prod.fst := by
  obtain ⟨e, he, hop⟩ := List.mem_flatMap.1 hop
  refine List.mem_map.2 ⟨e, he, ?_⟩
  rcases List.mem_pair.1 hop with rfl | rfl <;> exact (List.mem_singleton.1 hp).symm

/-- A file that may be written is as it was, or has been created, or has been filled. -/
theorem get?_writes {l : List (Path × String)} {ops : List Op}
    (hops : ∀ op ∈ ops, op ∈ l.flatMap fun e => writeText e.1 e.2) (tree : Tree) (p : Path) :
    (applyAll ops tree).get? p = tree.get? p ∨ (applyAll ops tree).get? p = some "" ∨
      ∃ e ∈ l, e.1 = p ∧ (applyAll ops tree).get? p = some e.2 := by
  induction ops generalizing tree with
  | nil => exact .inl rfl
  | cons op ops ih =>
    obtain ⟨hop, hops⟩ := List.forall_mem_cons.1 hops
    have hcons : applyAll (op :: ops) tree = applyAll ops (op.apply tree) := rfl
    rw [hcons]
    rcases ih hops (op.apply tree) with hold | hlater
    · rw [hold]
      obtain ⟨e, he, hop⟩ := List.mem_flatMap.1 hop
      rcases List.mem_pair.1 hop with rfl | rfl
      · rw [Op.apply, Dict.get?_set]
        split
        · exact .inr (.inl rfl)
        · exact .inl rfl
      · rw [Op.apply, Dict.get?_set]
        split
        · rename_i hp
          exact .inr (.inr ⟨e, he, hp.symm, rfl⟩)
        · exact .inl rfl
    · exact .inr hlater

theorem get?_unlinks (l : List Path) (tree : Tree) (p : Path) :
    (applyAll (l.map .unlink) tree).get? p = if p ∈ l then none else tree.get? p := by
  induction l generalizing tree with
  | nil => simp [applyAll]
  | cons q l ih =>
    show (applyAll (l.map .unlink) (tree.erase q)).get? p = _
    rw [ih, Dict.get?_erase]
    by_cases hq : p = q
    · simp [hq]
    · simp [hq]

section Staging

variable {dir : String}

/-- Files of the temporary directory that are put in place. -/
structure Staged (dir : String) (l : List (Path × Path × String)) : Prop where
  nodup : (l.map Prod.fst).Nodup
  source : ∀ e ∈ l, e.1.isStagedIn dir = true
  target : ∀ e ∈ l, e.2.1.isStagedIn dir = false

theorem Staged.tail {e : Path × Path × String} {l : List (Path × Path × String)}
    (h : Staged dir (e :: l)) : Staged dir l where
  nodup := (List.nodup_cons.1 h.nodup).2
  source := (List.forall_mem_cons.1 h.source).2
  target := (List.forall_mem_cons.1 h.target).2

theorem Staged.initial {l l' : List (Path × Path × String)} (h : Staged dir l) (hl : l' <+: l) :
    Staged dir l' where
  nodup := h.nodup.sublist (hl.sublist.map _)
  source := fun e he => h.source e (hl.subset he)
  target := fun e he => h.target e (hl.subset he)

theorem ne_of_isStagedIn {p q : Path} (hp : p.isStagedIn dir = false)
    (hq : q.isStagedIn dir = true) : p ≠ q := by
  rintro rfl
  rw [hp] at hq
  cases hq

theorem isStagedIn_staged (name : String) : (Path.staged dir name).isStagedIn dir = true :=
  decide_eq_true rfl

/-- What is put in place has been set. -/
theorem get?_renames {l : List (Path × Path × String)} {tree : Tree} (h : Staged dir l)
    (hsource : ∀ e ∈ l, tree.get? e.1 = some e.2.2) {p : Path} (hp : p.isStagedIn dir = false) :
    (applyAll (l.map fun e => .rename e.1 e.2.1) tree).get? p =
      (tree.update (l.map Prod.snd)).get? p := by
  induction l generalizing tree with
  | nil => rfl
  | cons e l ih =>
    obtain ⟨he, hl⟩ := List.forall_mem_cons.1 hsource
    obtain ⟨hstaged, -⟩ := List.forall_mem_cons.1 h.source
    obtain ⟨htarget, -⟩ := List.forall_mem_cons.1 h.target
    have hfirst : (Op.rename e.1 e.2.1).apply tree = (tree.erase e.1).set e.2.1 e.2.2 := by
      rw [Op.apply, he]
    show (applyAll (l.map fun e => .rename e.1 e.2.1) ((Op.rename e.1 e.2.1).apply tree)).get? p =
      ((tree.set e.2.1 e.2.2).update (l.map Prod.snd)).get? p
    rw [hfirst, ih h.tail, Dict.get?_update, Dict.get?_update, Dict.get?_set, Dict.get?_set,
      Dict.get?_erase_of_ne _ (ne_of_isStagedIn hp hstaged)]
    intro e' he'
    have hne : e'.1 ≠ e.1 := fun heq => (List.nodup_cons.1 h.nodup).1
      (heq ▸ List.mem_map_of_mem he')
    rw [Dict.get?_set_of_ne _ _ (ne_of_isStagedIn htarget (h.tail.source e' he')).symm,
      Dict.get?_erase_of_ne _ hne, hl e' he']

theorem nodup_stagedOutputs (outputs : List (Path × String)) :
    ((stagedOutputs dir outputs).map Prod.fst).Nodup := by
  rw [stagedOutputs, List.map_map]
  have hnames : (outputs.zipIdx.map Prod.snd).Nodup := by
    rw [List.zipIdx_map_snd]
    exact List.nodup_range'
  refine List.Nodup.of_map (fun p => p.name) ?_
  rw [List.map_map]
  have hcomp : (Path.name ∘ Prod.fst ∘ fun e : (Path × String) × ℕ =>
      (Path.staged dir ("output-" ++ toString e.2), e.1)) = (fun n => "output-" ++ toString n) ∘
        Prod.snd := rfl
  rw [hcomp, ← List.map_map]
  refine hnames.map fun m n hmn => ?_
  exact Text.toString_inj.1 ((String.append_right_inj "output-").1 hmn)

theorem map_snd_stagedOutputs (dir : String) (outputs : List (Path × String)) :
    (stagedOutputs dir outputs).map Prod.snd = outputs := by
  rw [stagedOutputs, List.map_map]
  exact List.zipIdx_map_fst _ _

theorem staged_stagedOutputs {outputs : List (Path × String)}
    (h : ∀ e ∈ outputs, e.1.isStagedIn dir = false) : Staged dir (stagedOutputs dir outputs) where
  nodup := nodup_stagedOutputs outputs
  source := fun e he => by
    obtain ⟨e', -, rfl⟩ := List.mem_map.1 he
    exact decide_eq_true rfl
  target := fun e he => h e.2 (map_snd_stagedOutputs dir outputs ▸ List.mem_map_of_mem he)

end Staging

/-! ## The archive -/

section Archive

variable {R : Runtime} {args : Args} {sources : String → Option Path} {tree : Tree}

/-- A fragment of the release is taken from its pending file, or from its archived one. -/
def SourcesOf (args : Args) (sources : String → Option Path) : Prop :=
  ∀ name p, sources name = some p → p = .pending name ∨ p = .archive args.version name

/-- The content of a fragment of the release: that of its archived file, if there is one. -/
def contentOf (args : Args) (sources : String → Option Path) (tree : Tree) (name : String) :
    Option String :=
  (tree.get? (.archive args.version name)).or ((sources name).bind tree.get?)

/-- The fragments that are copied into the archive. -/
def archiveCopies (args : Args) (sources : String → Option Path) (tree : Tree)
    (fragments : Inventory) : List (Path × String) :=
  fragments.filterMap fun e =>
    if tree.contains (.archive args.version e.1) then none
    else ((sources e.1).bind tree.get?).map (.archive args.version e.1, ·)

theorem mem_archiveCopies {fragments : Inventory} {e : Path × String} :
    e ∈ archiveCopies args sources tree fragments ↔
      ∃ name ∈ fragments.map Prod.fst, e.1 = .archive args.version name ∧
        tree.get? e.1 = none ∧ contentOf args sources tree name = some e.2 := by
  rw [archiveCopies, List.mem_filterMap]
  constructor
  · rintro ⟨f, hf, h⟩
    split at h
    · cases h
    · rename_i hnew
      obtain ⟨content, hcontent, rfl⟩ := Option.map_eq_some_iff.1 h
      have hnone : tree.get? (.archive args.version f.1) = none := by
        rw [Dict.get?_eq_none_iff]
        exact fun h => hnew (Dict.contains_iff.2 h)
      exact ⟨f.1, List.mem_map_of_mem hf, rfl, hnone, by rw [contentOf, hnone]; exact hcontent⟩
  · rintro ⟨name, hname, hpath, hnone, hcontent⟩
    obtain ⟨f, hf, rfl⟩ := List.mem_map.1 hname
    rw [hpath] at hnone
    refine ⟨f, hf, ?_⟩
    rw [contentOf, hnone] at hcontent
    rw [if_neg (by rw [Dict.contains, hnone]; exact Bool.false_ne_true), Option.map_eq_some_iff]
    exact ⟨e.2, hcontent, Prod.ext hpath.symm rfl⟩

/-- Whether a fragment has its digest. -/
def Intact (R : Runtime) (args : Args) (sources : String → Option Path) (tree : Tree)
    (e : String × String) : Prop :=
  (contentOf args sources tree e.1).map R.sha256 = some e.2

/-- What is known of the fragments does not change when another one is archived. -/
theorem contentOf_set (hsources : SourcesOf args sources) {name name' : String} {content : String}
    (h : name' ≠ name) :
    contentOf args sources (tree.set (.archive args.version name) content) name' =
      contentOf args sources tree name' := by
  have hne : Path.archive args.version name' ≠ .archive args.version name := fun heq => by
    cases heq
    exact h rfl
  rw [contentOf, contentOf, Dict.get?_set_of_ne _ _ hne]
  congr 1
  cases hp : sources name' with
  | none => rfl
  | some p =>
    refine Dict.get?_set_of_ne _ _ ?_
    rcases hsources name' p hp with rfl | rfl
    · exact fun heq => by cases heq
    · exact hne

/-- The fragments are archived if each of them has its digest. -/
theorem archiveFragments_eq_ok (hsources : SourcesOf args sources) {fragments : Inventory}
    (hnd : (fragments.map Prod.fst).Nodup) {ops : List Op} :
    archiveFragments R args sources fragments tree = (ops, .ok ()) ↔
      (∀ e ∈ fragments, Intact R args sources tree e) ∧
        ops = (archiveCopies args sources tree fragments).flatMap fun e => writeText e.1 e.2 := by
  induction fragments generalizing tree ops with
  | nil =>
    rw [archiveFragments, Prod.mk.injEq]
    exact ⟨fun h => ⟨fun _ h => absurd h List.not_mem_nil, h.1.symm⟩, fun h => ⟨h.2.symm, rfl⟩⟩
  | cons e rest ih =>
    obtain ⟨name, digest⟩ := e
    obtain ⟨hname, hnd⟩ := List.nodup_cons.1 hnd
    rw [archiveFragments]
    dsimp only
    cases hold : tree.get? (.archive args.version name) with
    | some content =>
      have hcontains : tree.contains (.archive args.version name) = true := by
        rw [Dict.contains, hold]
        rfl
      have hcopies : archiveCopies args sources tree ((name, digest) :: rest) =
          archiveCopies args sources tree rest := by
        rw [archiveCopies, List.filterMap_cons]
        dsimp only
        rw [if_pos hcontains, archiveCopies]
      have hintact : Intact R args sources tree (name, digest) ↔
          fileSha256 R tree (.archive args.version name) = some digest := by
        rw [Intact, contentOf, fileSha256, hold, Option.some_or]
      rw [if_pos hcontains, hcopies, List.forall_mem_cons, hintact, and_assoc]
      split
      · rename_i hdigest
        exact (ih hnd).trans ⟨fun h => ⟨hdigest, h⟩, fun h => h.2⟩
      · rename_i hdigest
        refine ⟨fun h => ?_, fun h => absurd h.1 hdigest⟩
        cases h
    | none =>
      have hcontains : tree.contains (.archive args.version name) = false := by
        rw [Dict.contains, hold]
        rfl
      rw [hcontains, if_neg Bool.false_ne_true]
      cases hsource : (sources name).bind tree.get? with
      | none =>
        refine ⟨fun h => (by cases h), fun h => ?_⟩
        have h := h.1 _ List.mem_cons_self
        rw [Intact, contentOf, hold, hsource] at h
        cases h
      | some content =>
        have hcopies : archiveCopies args sources tree ((name, digest) :: rest) =
            (.archive args.version name, content) :: archiveCopies args sources tree rest := by
          rw [archiveCopies, List.filterMap_cons]
          dsimp only
          rw [hcontains, if_neg Bool.false_ne_true, hsource, archiveCopies]
          rfl
        have hintact : Intact R args sources tree (name, digest) ↔ R.sha256 content = digest := by
          rw [Intact, contentOf, hold, hsource, Option.none_or, Option.map_some, Option.some_inj]
        have hwritten : applyAll (writeText (.archive args.version name) content) tree =
            tree.set (.archive args.version name) content := Dict.set_set _ _ _ _
        have hother : ∀ e ∈ rest, e.1 ≠ name := fun e he heq =>
          hname (List.mem_map.2 ⟨e, he, heq⟩)
        rw [hcopies, List.forall_mem_cons, hintact]
        dsimp only
        split
        · rename_i hdigest
          rw [hwritten]
          have hrest : archiveCopies args sources
              (tree.set (.archive args.version name) content) rest =
                archiveCopies args sources tree rest := by
            refine List.filterMap_congr fun e he => ?_
            have hne : Path.archive args.version e.1 ≠ .archive args.version name := fun heq => by
              cases heq
              exact hother e he rfl
            have hget := Dict.get?_set_of_ne tree content hne
            rw [Dict.contains, Dict.contains, hget]
            have hcontent : contentOf args sources (tree.set (.archive args.version name) content)
                e.1 = contentOf args sources tree e.1 := contentOf_set hsources (hother e he)
            rw [contentOf, contentOf, hget] at hcontent
            cases hold' : tree.get? (.archive args.version e.1) with
            | some c => rfl
            | none =>
              rw [hold', Option.none_or, Option.none_or] at hcontent
              rw [hcontent]
          have hsame : (∀ e ∈ rest, Intact R args sources
              (tree.set (.archive args.version name) content) e) ↔
                ∀ e ∈ rest, Intact R args sources tree e :=
            forall₂_congr fun e he => by rw [Intact, Intact, contentOf_set hsources (hother e he)]
          have hih : ∀ ops, archiveFragments R args sources rest
              (tree.set (.archive args.version name) content) = (ops, .ok ()) ↔
                (∀ e ∈ rest, Intact R args sources tree e) ∧
                  ops = (archiveCopies args sources tree rest).flatMap
                    fun e => writeText e.1 e.2 := fun ops => by rw [ih hnd, hsame, hrest]
          constructor
          · intro h
            have hfst := congrArg Prod.fst h
            have hsnd := congrArg Prod.snd h
            dsimp only at hfst hsnd
            obtain ⟨hall, hops⟩ := (hih _).1 (Prod.ext rfl hsnd)
            refine ⟨⟨hdigest, hall⟩, ?_⟩
            rw [← hfst, List.flatMap_cons]
            exact congrArg (writeText _ content ++ ·) hops
          · rintro ⟨⟨-, hall⟩, rfl⟩
            rw [(hih _).2 ⟨hall, rfl⟩]
            rfl
        · rename_i hdigest
          exact ⟨fun h => (by cases h), fun h => absurd h.1.1 hdigest⟩

end Archive

/-! ## The whole transaction -/

section Transact

variable {R : Runtime} {args : Args} {dir : String} {tree : Tree}

/-- The file that a fragment of the release is taken from. -/
def sourceOf (args : Args) (tree : Tree) (name : String) : Option Path :=
  (byName (glob tree (Path.isArchivedIn args.version)) name).or
    (byName (glob tree Path.isPending) name)

theorem mem_of_byName {paths : List Path} {name : String} {p : Path}
    (h : byName paths name = some p) : p ∈ paths ∧ p.name = name := by
  rw [byName] at h
  have hname := List.find?_some h
  exact ⟨List.mem_of_find?_eq_some h, of_decide_eq_true hname⟩

theorem eq_pending {p : Path} (h : p.isPending = true) : p = .pending p.name := by
  cases p <;> first | rfl | cases h

theorem eq_archive {version : String} {p : Path} (h : p.isArchivedIn version = true) :
    p = .archive version p.name := by
  cases p with
  | archive v name =>
    rw [Path.isArchivedIn, Bool.and_eq_true, decide_eq_true_eq] at h
    rw [h.1]
    rfl
  | _ => cases h

theorem sourcesOf_sourceOf : SourcesOf args (sourceOf args tree) := by
  intro name p hp
  rcases Option.or_eq_some_iff.1 hp with h | ⟨-, h⟩
  · obtain ⟨hmem, rfl⟩ := mem_of_byName h
    exact .inr (eq_archive (mem_glob.1 hmem).2)
  · obtain ⟨hmem, rfl⟩ := mem_of_byName h
    exact .inl (eq_pending (mem_glob.1 hmem).2)

namespace Plan

variable (R args dir tree) (p : Plan)

/-- The fragments of the transaction, with their digests. -/
def fragments : Inventory := p.transaction.getD (payload R tree (glob tree Path.isPending))

/-- The operations that put the outputs into the temporary directory. -/
def stageOps : List Op := (stagedOutputs dir p.outputs).flatMap fun e => writeText e.1 e.2.2

/-- The operations that put the marker in place. -/
def markOps : List Op :=
  if glob tree Path.isPending ≠ [] ∧ p.transaction = none
    then writeMarker R args dir (p.fragments R tree) else []

/-- The fragments that are copied into the archive. -/
def copies : List (Path × String) :=
  if glob tree Path.isPending ≠ []
    then archiveCopies args (sourceOf args tree) tree (p.fragments R tree) else []

/-- The operations that put the outputs in place. -/
def renameOps : List Op := (stagedOutputs dir p.outputs).map fun e => .rename e.1 e.2.1

/-- The operations that end the transaction. -/
def endOps : List Op := (glob tree Path.isPending ++ [Path.marker args.version]).map .unlink

/-- The operations of a release that ends normally. -/
def ops : List Op :=
  p.stageOps dir ++ (p.markOps R args dir tree ++
    ((p.copies R args tree).flatMap (fun e => writeText e.1 e.2) ++
      (p.renameOps dir ++ endOps args tree)))

end Plan

variable {p : Plan}

/-- The temporary directory only is touched. -/
theorem touched_stageOps {op : Op} {q : Path} (hop : op ∈ p.stageOps dir) (hq : q ∈ op.touched) :
    q.isStagedIn dir = true := by
  obtain ⟨e, he, hop⟩ := List.mem_flatMap.1 hop
  have hq : q = e.1 := by
    rcases List.mem_pair.1 hop with rfl | rfl <;> exact List.mem_singleton.1 hq
  obtain ⟨e', -, rfl⟩ := List.mem_map.1 he
  exact hq ▸ decide_eq_true rfl

theorem touched_writeMarker {fragments : Inventory} {op : Op} {q : Path}
    (hop : op ∈ writeMarker R args dir fragments) (hq : q ∈ op.touched) :
    q = .staged dir "release-transaction.json" ∨ q = Path.marker args.version := by
  rcases List.mem_append.1 hop with h | h
  · rcases List.mem_pair.1 h with rfl | rfl <;> exact .inl (List.mem_singleton.1 hq)
  · obtain rfl := List.mem_singleton.1 h
    exact List.mem_pair.1 hq

theorem touched_markOps {op : Op} {q : Path} (hop : op ∈ p.markOps R args dir tree)
    (hq : q ∈ op.touched) :
    q = .staged dir "release-transaction.json" ∨ q = Path.marker args.version := by
  rw [Plan.markOps] at hop
  split at hop
  · exact touched_writeMarker hop hq
  · exact absurd hop List.not_mem_nil

theorem copies_path {e : Path × String} (he : e ∈ p.copies R args tree) :
    ∃ name ∈ (p.fragments R tree).map Prod.fst, e.1 = .archive args.version name := by
  rw [Plan.copies] at he
  split at he
  · obtain ⟨name, hname, hpath, -⟩ := mem_archiveCopies.1 he
    exact ⟨name, hname, hpath⟩
  · exact absurd he List.not_mem_nil

/-- A release whose fragments have the names of YAML files ends normally if each of them has its
    digest. -/
theorem transact_eq_ok (hnd : ((p.fragments R tree).map Prod.fst).Nodup)
    (hyml : ∀ name ∈ (p.fragments R tree).map Prod.fst, Text.endsWith name ".yml" = true)
    {ops : List Op} : transact R args dir p tree = (ops, .ok ()) ↔
      (glob tree Path.isPending ≠ [] →
        ∀ e ∈ p.fragments R tree, Intact R args (sourceOf args tree) tree e) ∧
        ops = p.ops R args dir tree := by
  -- The loop over the fragments finds the archive and the pending files as they were.
  have hfiles : ∀ q, q.isStagedIn dir = false → q ≠ Path.marker args.version →
      (applyAll (p.stageOps dir ++ p.markOps R args dir tree) tree).get? q = tree.get? q := by
    intro q hq hmarker
    refine get?_applyAll fun op hop hmem => ?_
    rcases List.mem_append.1 hop with h | h
    · exact absurd (touched_stageOps h hmem) (by rw [hq]; exact Bool.false_ne_true)
    · rcases touched_markOps h hmem with rfl | rfl
      · rw [Path.isStagedIn] at hq
        exact absurd (decide_eq_true rfl) (by rw [hq]; exact Bool.false_ne_true)
      · exact hmarker rfl
  have hname : ∀ name ∈ (p.fragments R tree).map Prod.fst,
      Path.archive args.version name ≠ Path.marker args.version := by
    intro name hmem heq
    cases heq
    exact absurd (hyml _ hmem) (by decide)
  have hcontent : ∀ name ∈ (p.fragments R tree).map Prod.fst,
      contentOf args (sourceOf args tree)
        (applyAll (p.stageOps dir ++ p.markOps R args dir tree) tree) name =
          contentOf args (sourceOf args tree) tree name := by
    intro name hmem
    rw [contentOf, contentOf, hfiles _ rfl (hname name hmem)]
    congr 1
    cases hsource : sourceOf args tree name with
    | none => rfl
    | some q =>
      rcases sourcesOf_sourceOf name q hsource with rfl | rfl
      · exact hfiles _ rfl fun heq => by cases heq
      · exact hfiles _ rfl (hname name hmem)
  have hcopies : archiveCopies args (sourceOf args tree)
      (applyAll (p.stageOps dir ++ p.markOps R args dir tree) tree) (p.fragments R tree) =
        archiveCopies args (sourceOf args tree) tree (p.fragments R tree) := by
    refine List.filterMap_congr fun e he => ?_
    have hmem : e.1 ∈ (p.fragments R tree).map Prod.fst := List.mem_map_of_mem he
    have hget := hfiles _ rfl (hname _ hmem)
    have hc := hcontent _ hmem
    rw [contentOf, contentOf, hget] at hc
    rw [Dict.contains, Dict.contains, hget]
    cases hold : tree.get? (.archive args.version e.1) with
    | some content => rfl
    | none =>
      rw [hold, Option.none_or, Option.none_or] at hc
      rw [hc]
  have hintact : (∀ e ∈ p.fragments R tree, Intact R args (sourceOf args tree)
      (applyAll (p.stageOps dir ++ p.markOps R args dir tree) tree) e) ↔
        ∀ e ∈ p.fragments R tree, Intact R args (sourceOf args tree) tree e :=
    forall₂_congr fun e he => by rw [Intact, Intact, hcontent _ (List.mem_map_of_mem he)]
  have hend : ∀ middle : List Op, p.stageOps dir ++ p.markOps R args dir tree ++ middle ++
      p.renameOps dir ++ (glob tree Path.isPending).map .unlink ++
        [.unlink (Path.marker args.version)] =
        p.stageOps dir ++ (p.markOps R args dir tree ++ (middle ++
          (p.renameOps dir ++ Plan.endOps args tree))) := by
    intro middle
    rw [Plan.endOps, List.map_append]
    simp only [List.append_assoc, List.map_cons, List.map_nil]
  rw [transact]
  by_cases hpending : glob tree Path.isPending = []
  · have hno : ¬glob tree Path.isPending ≠ [] := fun h => h hpending
    simp only [if_neg hno, Prod.mk.injEq, and_true]
    have hmark : (if glob tree Path.isPending ≠ [] ∧ p.transaction = none then
        writeMarker R args dir (p.transaction.getD (payload R tree (glob tree Path.isPending)))
          else []) = p.markOps R args dir tree := rfl
    rw [hmark]
    constructor
    · rintro rfl
      refine ⟨fun h => absurd h hno, ?_⟩
      rw [Plan.ops, Plan.copies, if_neg hno]
      exact hend []
    · rintro ⟨-, rfl⟩
      rw [Plan.ops, Plan.copies, if_neg hno]
      exact hend []
  · have hspec : ∀ copied, archiveFragments R args (sourceOf args tree) (p.fragments R tree)
        (applyAll (p.stageOps dir ++ p.markOps R args dir tree) tree) = (copied, .ok ()) ↔
          (∀ e ∈ p.fragments R tree, Intact R args (sourceOf args tree) tree e) ∧
            copied = (archiveCopies args (sourceOf args tree) tree (p.fragments R tree)).flatMap
              fun e => writeText e.1 e.2 := fun copied => by
      rw [archiveFragments_eq_ok sourcesOf_sourceOf hnd, hintact, hcopies]
    dsimp only
    rw [if_pos hpending]
    generalize hrun : archiveFragments R args (sourceOf args tree) (p.fragments R tree)
      (applyAll (p.stageOps dir ++ p.markOps R args dir tree) tree) = run
    have hrun' : archiveFragments R args
        (fun name => (byName (glob tree (Path.isArchivedIn args.version)) name).or
          (byName (glob tree Path.isPending) name))
        (p.transaction.getD (payload R tree (glob tree Path.isPending)))
        (applyAll ((stagedOutputs dir p.outputs).flatMap (fun e => writeText e.1 e.2.2) ++
          if glob tree Path.isPending ≠ [] ∧ p.transaction = none then
            writeMarker R args dir (p.transaction.getD (payload R tree (glob tree Path.isPending)))
          else []) tree) = run := hrun
    rw [hrun']
    obtain ⟨copied, result⟩ := run
    cases result with
    | error e =>
      constructor
      · intro h
        cases h
      · rintro ⟨hall, -⟩
        cases hrun.symm.trans ((hspec _).2 ⟨hall hpending, rfl⟩)
    | ok u =>
      obtain ⟨hall, rfl⟩ := (hspec _).1 hrun
      have hops : p.ops R args dir tree = p.stageOps dir ++ p.markOps R args dir tree ++
          ((archiveCopies args (sourceOf args tree) tree (p.fragments R tree)).flatMap fun e =>
            writeText e.1 e.2) ++ p.renameOps dir ++ (glob tree Path.isPending).map .unlink ++
              [.unlink (Path.marker args.version)] := by
        rw [hend, Plan.ops, Plan.copies, if_pos hpending]
      constructor
      · intro h
        refine ⟨fun _ => hall, ?_⟩
        rw [hops]
        exact (congrArg Prod.fst h).symm
      · rintro ⟨-, rfl⟩
        rw [hops]
        rfl

/-! ### What it leaves -/

/-- Each output has a file of its own, which no other step of a release touches. -/
structure Plan.Placed (p : Plan) : Prop where
  nodup : (p.outputs.map Prod.fst).Nodup
  place : ∀ e ∈ p.outputs, e.1.isStaged = false ∧ (∀ name, e.1 ≠ .pending name) ∧
    ∀ version name, e.1 ≠ .archive version name

theorem Plan.Placed.notStagedIn (h : p.Placed) {e : Path × String} (he : e ∈ p.outputs) :
    e.1.isStagedIn dir = false := by
  have := (h.place e he).1
  cases hp : e.1 <;> simp_all [Path.isStaged, Path.isStagedIn]

theorem isStagedIn_of_isStaged {q : Path} (h : q.isStaged = false) : q.isStagedIn dir = false := by
  cases q <;> simp_all [Path.isStaged, Path.isStagedIn]

theorem get?_stageOps {q : Path} (hq : q.isStagedIn dir = false) {pre : List Op}
    (hpre : pre <+: p.stageOps dir) : (applyAll pre tree).get? q = tree.get? q :=
  get?_applyAll fun op hop hmem => by
    rw [touched_stageOps (hpre.subset hop) hmem] at hq
    cases hq

/-- The outputs are in the temporary directory. -/
theorem get?_staged {e : Path × Path × String} (he : e ∈ stagedOutputs dir p.outputs) :
    (applyAll (p.stageOps dir) tree).get? e.1 = some e.2.2 := by
  have hwrites : p.stageOps dir = ((stagedOutputs dir p.outputs).map fun e => (e.1, e.2.2)).flatMap
      fun e => writeText e.1 e.2 := by
    rw [Plan.stageOps, List.flatMap_map]
  rw [hwrites, applyAll_writes, Dict.get?_update]
  have hnd : (((stagedOutputs dir p.outputs).map fun e =>
      (e.1, e.2.2)).reverse.map Prod.fst).Nodup := by
    rw [List.map_reverse, List.nodup_reverse, List.map_map]
    exact nodup_stagedOutputs p.outputs
  rw [(Dict.lookup_eq_some_iff_mem hnd).2
    (List.mem_reverse.2 (List.mem_map.2 ⟨e, he, rfl⟩)), Option.some_or]

/-- The marker of a new transaction. -/
def Plan.markerText (R : Runtime) (args : Args) (tree : Tree) (p : Plan) : String :=
  R.dumpJson (transactionDoc args (p.fragments R tree)) ++ "\n"

theorem get?_writeMarker {fragments : Inventory} {q : Path} (hq : q.isStagedIn dir = false) :
    (applyAll (writeMarker R args dir fragments) tree).get? q =
      if q = Path.marker args.version
        then some (R.dumpJson (transactionDoc args fragments) ++ "\n") else tree.get? q := by
  have hset : applyAll (writeMarker R args dir fragments) tree =
      ((tree.set (.staged dir "release-transaction.json")
        (R.dumpJson (transactionDoc args fragments) ++ "\n")).erase
          (.staged dir "release-transaction.json")).set (Path.marker args.version)
            (R.dumpJson (transactionDoc args fragments) ++ "\n") := by
    rw [writeMarker, applyAll_append]
    show (Op.rename _ _).apply ((tree.set _ "").set _ _) = _
    rw [Dict.set_set, Op.apply, Dict.get?_set_self]
  have hne : q ≠ .staged dir "release-transaction.json" := ne_of_isStagedIn hq (isStagedIn_staged _)
  rw [hset, Dict.get?_set, Dict.get?_erase_of_ne _ hne, Dict.get?_set_of_ne _ _ hne]

/-- Until the marker is in place, nothing is touched outside the temporary directory. -/
theorem get?_markOps_part {q : Path} (hq : q.isStagedIn dir = false) {pre : List Op}
    (hpre : pre <+: p.markOps R args dir tree) (hne : pre ≠ p.markOps R args dir tree) {t : Tree} :
    (applyAll pre t).get? q = t.get? q := by
  refine get?_applyAll fun op hop hmem => ?_
  rw [Plan.markOps] at hpre hne
  split at hpre
  · rename_i hnew
    rw [if_pos hnew] at hne
    have hinit := (List.prefix_concat_iff.1 hpre).resolve_left hne
    rcases List.mem_pair.1 (hinit.subset hop) with rfl | rfl
    all_goals
      rw [List.mem_singleton.1 hmem, Path.isStagedIn, decide_eq_false_iff_not] at hq
      exact hq rfl
  · exact absurd (List.prefix_nil.1 hpre ▸ hop) List.not_mem_nil

theorem get?_endOps {t : Tree} {q : Path} : (applyAll (Plan.endOps args tree) t).get? q =
    if q ∈ glob tree Path.isPending ∨ q = Path.marker args.version then none else t.get? q := by
  rw [Plan.endOps, get?_unlinks]
  simp only [List.mem_append, List.mem_singleton]

/-- The outputs are still in the temporary directory when the marker is in place. -/
theorem get?_staged_markOps {e : Path × Path × String} (he : e ∈ stagedOutputs dir p.outputs) :
    (applyAll (p.markOps R args dir tree) (applyAll (p.stageOps dir) tree)).get? e.1 =
      some e.2.2 := by
  rw [get?_applyAll, get?_staged he]
  obtain ⟨e', -, rfl⟩ := List.mem_map.1 he
  intro op hop hmem
  rcases touched_markOps hop hmem with h | h
  · have hchar := congrArg (fun q : Path => q.name.toList.head?) h
    dsimp only [Path.name] at hchar
    rw [String.toList_append, List.head?_append_of_ne_nil _ (by decide)] at hchar
    exact absurd hchar (by decide)
  · cases h

/-- The outputs are still in the temporary directory when they are put in place. -/
theorem get?_staged_copies {e : Path × Path × String} (he : e ∈ stagedOutputs dir p.outputs) :
    (applyAll ((p.copies R args tree).flatMap fun e => writeText e.1 e.2)
      (applyAll (p.markOps R args dir tree) (applyAll (p.stageOps dir) tree))).get? e.1 =
        some e.2.2 := by
  rw [get?_applyAll, get?_staged_markOps he]
  obtain ⟨e', -, rfl⟩ := List.mem_map.1 he
  intro op hop hmem
  obtain ⟨e, he, heq⟩ := List.mem_map.1 (touched_writes hop hmem)
  obtain ⟨name, -, hpath⟩ := copies_path he
  cases heq.symm.trans hpath

/-- What a release leaves outside the temporary directory. -/
theorem get?_ops (hp : p.Placed) {q : Path} (hq : q.isStagedIn dir = false) :
    (applyAll (p.ops R args dir tree) tree).get? q =
      if q ∈ glob tree Path.isPending ∨ q = Path.marker args.version then none
      else (tree.update (p.copies R args tree ++ p.outputs)).get? q := by
  rw [Plan.ops, applyAll_append, applyAll_append, applyAll_append, applyAll_append, get?_endOps]
  by_cases hend : q ∈ glob tree Path.isPending ∨ q = Path.marker args.version
  · rw [if_pos hend, if_pos hend]
  · have hmark : (applyAll (p.markOps R args dir tree) (applyAll (p.stageOps dir) tree)).get? q =
        tree.get? q := by
      rw [get?_applyAll, get?_stageOps hq (List.prefix_refl _)]
      intro op hop hmem
      rcases touched_markOps hop hmem with h | h
      · exact ne_of_isStagedIn hq (isStagedIn_staged _) h
      · exact hend (.inr h)
    rw [if_neg hend, if_neg hend, Plan.renameOps,
      get?_renames (staged_stagedOutputs fun e he => hp.notStagedIn he)
        (fun e he => get?_staged_copies he) hq, map_snd_stagedOutputs, applyAll_writes,
      Dict.get?_update, Dict.get?_update, hmark, Dict.get?_update, List.reverse_append,
      List.lookup_append, Option.or_assoc]

end Transact

end Dnlab.Changes
