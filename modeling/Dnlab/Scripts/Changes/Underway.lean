import Dnlab.Scripts.Changes.Validates

/-!
# Interrupted releases

The trees that a release leaves that is interrupted after some of its file
operations. Until its marker is in place, only the temporary directory has
changed (`Agrees`). With the marker, each output is the old or the new one, and
each fragment is pending or archived (`Underway`); with the marker deleted, the
release is done (`Released`). `Underway.run` follows the operations of a release
from the marker on, be it the first attempt or another one.
-/

namespace Dnlab.Changes

/-- Trees with the same files outside of temporary directories. -/
def Agrees (t t' : Tree) : Prop := ∀ p, p.isStaged = false → t.get? p = t'.get? p

theorem prefix_or_append {α : Type*} {pre l₁ l₂ : List α} (h : pre <+: l₁ ++ l₂) :
    pre <+: l₁ ∨ ∃ pre', pre = l₁ ++ pre' ∧ pre' <+: l₂ := by
  rcases List.prefix_or_prefix_of_prefix h (List.prefix_append l₁ l₂) with h' | ⟨pre', rfl⟩
  · exact .inl h'
  · exact .inr ⟨pre', rfl, (List.prefix_append_right_inj l₁).1 h⟩

/-- No fragment of a tree is in the midst of being copied in another one. -/
def Whole (args : Args) (tree t : Tree) : Prop :=
  ∀ p ∈ glob tree Path.isPending,
    t.get? (args.toArchive p) = none ∨ t.get? (args.toArchive p) = tree.get? p

namespace NewRelease

variable {R : Runtime} {git : Option (Tree → Except String (List String))} {args : Args}
  {tree : Tree} (N : NewRelease R git args tree)

/-- The tree while a release has its marker. -/
structure Underway (t : Tree) : Prop where
  marker : t.get? (Path.marker args.version) = some (N.plan.markerText R args tree)
  output : ∀ e ∈ N.outputs, t.get? e.1 = some e.2 ∨ t.get? e.1 = tree.get? e.1
  whole : Whole args tree t
  pending : ∀ p ∈ glob tree Path.isPending, t.get? p = tree.get? p ∨
    t.get? p = none ∧ t.get? (args.toArchive p) = tree.get? p
  new : ∀ p, p.isPending = true → p ∉ glob tree Path.isPending → t.get? p = none
  other : ∀ p, p.isStaged = false → p.isPending = false → p ≠ Path.marker args.version →
    p ∉ N.outputs.map Prod.fst → p ∉ (glob tree Path.isPending).map args.toArchive →
      t.get? p = tree.get? p

variable {N} {t t' : Tree} {dir : String}

theorem isStaged_of_isPending {p : Path} (h : p.isPending = true) : p.isStaged = false := by
  rw [eq_pending h]
  rfl

theorem toArchive_ne_output {p : Path} {e : Path × String} (he : e ∈ N.outputs) :
    args.toArchive p ≠ e.1 := fun h => (N.placed.place e he).2.2 _ _ h.symm

theorem marker_ne_output {e : Path × String} (he : e ∈ N.outputs) :
    Path.marker args.version ≠ e.1 := fun h => (N.placed.place e he).2.2 _ _ h.symm

theorem pending_ne_output {p : Path} (hp : p.isPending = true) {e : Path × String}
    (he : e ∈ N.outputs) : p ≠ e.1 := fun h =>
  (N.placed.place e he).2.1 p.name (h ▸ eq_pending hp)

theorem pending_ne_toArchive {p q : Path} (hp : p.isPending = true) : p ≠ args.toArchive q := by
  rw [eq_pending hp]
  exact nofun

theorem pending_ne_marker {p : Path} {version : String} (hp : p.isPending = true) :
    p ≠ Path.marker version := by
  rw [eq_pending hp]
  exact nofun

theorem Underway.of_agrees (h : N.Underway t) (ha : Agrees t' t) : N.Underway t' where
  marker := (ha _ rfl).trans h.marker
  output := fun e he => by
    rw [ha _ (N.placed.place e he).1]
    exact h.output e he
  whole := fun p hp => by
    rw [ha _ rfl]
    exact h.whole p hp
  pending := fun p hp => by
    rw [ha _ (isStaged_of_isPending (mem_glob.1 hp).2), ha (args.toArchive p) rfl]
    exact h.pending p hp
  new := fun p hp hnew => (ha _ (isStaged_of_isPending hp)).trans (h.new p hp hnew)
  other := fun p hstaged hp hmarker hout harchive =>
    (ha _ hstaged).trans (h.other p hstaged hp hmarker hout harchive)

/-- The marker is put in place. -/
theorem underway_of_marker (ht : ∀ p, p.isStaged = false → t.get? p =
    if p = Path.marker args.version then some (N.plan.markerText R args tree)
    else tree.get? p) : N.Underway t where
  marker := by rw [ht _ rfl, if_pos rfl]
  output := fun e he => by
    rw [ht _ (N.placed.place e he).1, if_neg (marker_ne_output he).symm]
    exact .inr rfl
  whole := fun p hp => by
    have hyml := isYml_of_isPending (mem_glob.1 hp).2
    rw [ht _ rfl, if_neg (toArchive_ne_marker hyml), N.get?_toArchive hyml]
    exact .inl rfl
  pending := fun p hp => by
    have hpending := (mem_glob.1 hp).2
    rw [ht _ (isStaged_of_isPending hpending), if_neg (pending_ne_marker hpending)]
    exact .inl rfl
  new := fun p hp hnew => by
    rw [ht _ (isStaged_of_isPending hp), if_neg (pending_ne_marker hp)]
    exact Dict.get?_eq_none_iff.2 fun hkey => hnew (mem_glob.2 ⟨hkey, hp⟩)
  other := fun p hstaged hp hmarker hout harchive => by rw [ht _ hstaged, if_neg hmarker]

/-! ## The operations of a release -/

section Steps

/-- Fragments are copied into the archive. -/
theorem Underway.copying (h : N.Underway t) {copies : List (Path × String)}
    (hcopies : ∀ e ∈ copies, ∃ q ∈ glob tree Path.isPending,
      e.1 = args.toArchive q ∧ t.get? e.1 = none)
    {pre : List Op} (hpre : pre <+: copies.flatMap fun e => writeText e.1 e.2)
    (hwhole : Whole args tree (applyAll pre t)) : N.Underway (applyAll pre t) := by
  have hframe {p : Path}
      (hp : ∀ q ∈ glob tree Path.isPending, t.get? p = none → p ≠ args.toArchive q) :
      (applyAll pre t).get? p = t.get? p :=
    get?_applyAll fun op hop hmem => by
      obtain ⟨e, he, rfl⟩ := List.mem_map.1 (touched_writes (hpre.subset hop) hmem)
      obtain ⟨q, hq, hpath, hnone⟩ := hcopies e he
      exact hp q hq hnone hpath
  refine ⟨?_, fun e he => ?_, hwhole, fun p hp => ?_, fun p hp hnew => ?_,
    fun p hstaged hp hmarker hout harchive => ?_⟩
  · rw [hframe fun q hq _ => (toArchive_ne_marker (isYml_of_isPending (mem_glob.1 hq).2)).symm]
    exact h.marker
  · rw [hframe fun q _ _ => (toArchive_ne_output he).symm]
    exact h.output e he
  · rw [hframe fun q _ _ => pending_ne_toArchive (mem_glob.1 hp).2]
    refine (h.pending p hp).imp_right fun hmoved => ⟨hmoved.1, ?_⟩
    rw [hframe fun q _ hnone => ?_]
    · exact hmoved.2
    · rw [hmoved.2, getD_of_mem_glob hp] at hnone
      cases hnone
  · rw [hframe fun q _ _ => pending_ne_toArchive hp]
    exact h.new p hp hnew
  · rw [hframe fun q hq _ heq => harchive (List.mem_map.2 ⟨q, hq, heq.symm⟩)]
    exact h.other p hstaged hp hmarker hout harchive

/-- The tree in the midst of a copy: the archived file is there, and empty. -/
structure Torn (N : NewRelease R git args tree) (t : Tree) : Prop where
  marker : t.get? (Path.marker args.version) = some (N.plan.markerText R args tree)
  torn : ∃ p ∈ glob tree Path.isPending,
    t.get? (args.toArchive p) = some "" ∧ tree.get? p ≠ some ""

theorem Torn.not_whole (h : N.Torn t) : ¬Whole args tree t := by
  intro hwhole
  obtain ⟨p, hp, hempty, hne⟩ := h.torn
  rcases hwhole p hp with hnone | hsome
  · rw [hempty] at hnone
    cases hnone
  · exact hne (hsome.symm.trans hempty)

/-- If not all files are whole while fragments are copied, one of them is empty. -/
theorem Underway.torn (h : N.Underway t) {copies : List (Path × String)}
    (hcopies : ∀ e, e ∈ copies ↔ ∃ q ∈ glob tree Path.isPending,
      e.1 = args.toArchive q ∧ t.get? e.1 = none ∧ tree.get? q = some e.2)
    {pre : List Op} (hpre : pre <+: copies.flatMap fun e => writeText e.1 e.2)
    (hwhole : ¬Whole args tree (applyAll pre t)) : N.Torn (applyAll pre t) where
  marker := by
    rw [get?_applyAll, h.marker]
    intro op hop hmem
    obtain ⟨e, he, heq⟩ := List.mem_map.1 (touched_writes (hpre.subset hop) hmem)
    obtain ⟨q, hq, hpath, -⟩ := (hcopies e).1 he
    exact toArchive_ne_marker (isYml_of_isPending (mem_glob.1 hq).2) (hpath.symm.trans heq)
  torn := by
    unfold Whole at hwhole
    push Not at hwhole
    obtain ⟨p, hp, hsome, hne⟩ := hwhole
    rcases get?_writes (fun op hop => hpre.subset hop) t (args.toArchive p) with
      hold | hempty | ⟨e, he, hpath, hnew⟩
    · rw [hold] at hsome hne
      exact absurd (h.whole p hp) (not_or.2 ⟨hsome, hne⟩)
    · refine ⟨p, hp, hempty, fun h => hne (hempty.trans h.symm)⟩
    · obtain ⟨q, hq, hpath', -, hget⟩ := (hcopies e).1 he
      obtain rfl := eq_of_toArchive hp hq (hpath.symm.trans hpath')
      exact absurd (hnew.trans hget.symm) hne

/-- The tree while a release has its marker, with all its fragments archived. -/
structure Archived (N : NewRelease R git args tree) (t : Tree) : Prop extends N.Underway t where
  archived : ∀ p ∈ glob tree Path.isPending, t.get? (args.toArchive p) = tree.get? p

/-- All fragments have been copied. -/
theorem Underway.copied (h : N.Underway t) {copies : List (Path × String)}
    (hcopies : ∀ e, e ∈ copies ↔ ∃ q ∈ glob tree Path.isPending,
      e.1 = args.toArchive q ∧ t.get? e.1 = none ∧ tree.get? q = some e.2) :
    N.Archived (applyAll (copies.flatMap fun e => writeText e.1 e.2) t) := by
  have harchived : ∀ p ∈ glob tree Path.isPending,
      (applyAll (copies.flatMap fun e => writeText e.1 e.2) t).get? (args.toArchive p) =
        tree.get? p := by
    intro p hp
    rw [applyAll_writes]
    rcases h.whole p hp with hnone | hsome
    · have hcontent := getD_of_mem_glob hp
      rw [hcontent]
      refine get?_update_of_forall ((hcopies _).2 ⟨p, hp, rfl, hnone, hcontent⟩)
        fun content hmem => ?_
      obtain ⟨q, hq, hpath, -, hq'⟩ := (hcopies _).1 hmem
      obtain rfl := eq_of_toArchive hp hq hpath
      exact Option.some_inj.1 (hq'.symm.trans hcontent)
    · rw [Dict.get?_update_of_notMem, hsome]
      intro hmem
      obtain ⟨e, he, hpath⟩ := List.mem_map.1 hmem
      obtain ⟨-, -, -, hnone, -⟩ := (hcopies e).1 he
      rw [hpath, hsome, getD_of_mem_glob hp] at hnone
      cases hnone
  refine ⟨h.copying (fun e he => ?_) (List.prefix_refl _) fun p hp => .inr (harchived p hp),
    harchived⟩
  obtain ⟨q, hq, hpath, hnone, -⟩ := (hcopies e).1 he
  exact ⟨q, hq, hpath, hnone⟩

/-- The first outputs are put in place. -/
theorem Archived.renaming (h : N.Archived t)
    (hstaged : ∀ e ∈ stagedOutputs dir N.outputs, t.get? e.1 = some e.2.2)
    {l : List (Path × Path × String)} (hl : l <+: stagedOutputs dir N.outputs) :
    N.Archived (applyAll (l.map fun e => .rename e.1 e.2.1) t) ∧
      ∀ e ∈ l.map Prod.snd,
        (applyAll (l.map fun e => .rename e.1 e.2.1) t).get? e.1 = some e.2 := by
  have hout : l.map Prod.snd <+: N.outputs := map_snd_stagedOutputs dir N.outputs ▸ hl.map _
  have hget {p : Path} (hp : p.isStaged = false) :
      (applyAll (l.map fun e => .rename e.1 e.2.1) t).get? p =
        (t.update (l.map Prod.snd)).get? p :=
    get?_renames ((staged_stagedOutputs fun e he => N.placed.notStagedIn he).initial hl)
      (fun e he => hstaged e (hl.subset he)) (isStagedIn_of_isStaged hp)
  have hnew : ∀ e ∈ l.map Prod.snd,
      (applyAll (l.map fun e => .rename e.1 e.2.1) t).get? e.1 = some e.2 := by
    intro e he
    rw [hget (N.placed.place e (hout.subset he)).1]
    refine get?_update_of_forall he fun content hmem => ?_
    exact congrArg Prod.snd (List.inj_on_of_nodup_map N.placed.nodup (hout.subset hmem)
      (hout.subset he) rfl)
  have hframe {p : Path} (hp : p.isStaged = false) (hne : ∀ e ∈ N.outputs, p ≠ e.1) :
      (applyAll (l.map fun e => .rename e.1 e.2.1) t).get? p = t.get? p := by
    rw [hget hp, Dict.get?_update_of_notMem]
    intro hmem
    obtain ⟨e, he, heq⟩ := List.mem_map.1 hmem
    exact hne e (hout.subset he) heq.symm
  have hframe_archive (p : Path) : (applyAll (l.map fun e => .rename e.1 e.2.1) t).get?
      (args.toArchive p) = t.get? (args.toArchive p) :=
    hframe rfl fun e he => toArchive_ne_output he
  refine ⟨⟨⟨?_, fun e he => ?_, fun p hp => ?_, fun p hp => ?_, fun p hp hnew => ?_,
    fun p hstaged hp hmarker hout' harchive => ?_⟩, fun p hp => ?_⟩, hnew⟩
  · rw [hframe rfl fun e he => marker_ne_output he]
    exact h.marker
  · by_cases hmem : e ∈ l.map Prod.snd
    · exact .inl (hnew e hmem)
    · rw [hget (N.placed.place e he).1, Dict.get?_update_of_notMem]
      · exact h.output e he
      · intro hfst
        obtain ⟨e', he', heq⟩ := List.mem_map.1 hfst
        obtain rfl := List.inj_on_of_nodup_map N.placed.nodup (hout.subset he') he heq
        exact hmem he'
  · rw [hframe_archive]
    exact h.whole p hp
  · have hpending := (mem_glob.1 hp).2
    rw [hframe (isStaged_of_isPending hpending) fun e he => pending_ne_output hpending he,
      hframe_archive]
    exact h.pending p hp
  · rw [hframe (isStaged_of_isPending hp) fun e he => pending_ne_output hp he]
    exact h.new p hp hnew
  · rw [hframe hstaged fun e he heq => hout' (heq ▸ List.mem_map_of_mem he)]
    exact h.other p hstaged hp hmarker hout' harchive
  · rw [hframe_archive]
    exact h.archived p hp

/-- The tree while a release has its marker, with all its fragments archived and all its outputs
    in place. -/
structure Written (N : NewRelease R git args tree) (t : Tree) : Prop extends N.Archived t where
  written : ∀ e ∈ N.outputs, t.get? e.1 = some e.2

/-- Pending fragments are deleted. -/
theorem Written.unlinking (h : N.Written t) {l : List Path} (hl : ∀ p ∈ l, p.isPending = true) :
    N.Written (applyAll (l.map .unlink) t) := by
  have hframe {p : Path} (hp : p.isPending = false) :
      (applyAll (l.map .unlink) t).get? p = t.get? p := by
    rw [get?_unlinks, if_neg]
    intro hmem
    rw [hl p hmem] at hp
    cases hp
  have houtput {e : Path × String} (he : e ∈ N.outputs) : e.1.isPending = false := by
    by_contra hp
    exact pending_ne_output (by simpa using hp) he rfl
  refine ⟨⟨⟨?_, fun e he => ?_, fun p hp => ?_, fun p hp => ?_, fun p hp hnew => ?_,
    fun p hstaged hp hmarker hout harchive => ?_⟩, fun p hp => ?_⟩, fun e he => ?_⟩
  · rw [hframe rfl]
    exact h.marker
  · rw [hframe (houtput he)]
    exact h.output e he
  · rw [hframe rfl]
    exact h.whole p hp
  · rw [get?_unlinks, hframe (p := args.toArchive p) rfl]
    split
    · exact .inr ⟨rfl, h.archived p hp⟩
    · exact h.pending p hp
  · rw [get?_unlinks]
    split
    · rfl
    · exact h.new p hp hnew
  · rw [hframe hp]
    exact h.other p hstaged hp hmarker hout harchive
  · rw [hframe rfl]
    exact h.archived p hp
  · rw [hframe (houtput he)]
    exact h.written e he

/-- The pending fragments and the marker are deleted. -/
theorem Written.released (h : N.Written t) {l : List Path}
    (hl : ∀ p, p ∈ l ↔ p ∈ glob t Path.isPending) :
    N.Released (applyAll ((l ++ [Path.marker args.version]).map .unlink) t) := by
  have hframe {p : Path} (hp : p.isPending = false) (hmarker : p ≠ Path.marker args.version) :
      (applyAll ((l ++ [Path.marker args.version]).map .unlink) t).get? p = t.get? p := by
    rw [get?_unlinks, if_neg]
    rw [List.mem_append, List.mem_singleton, not_or]
    refine ⟨fun hmem => ?_, hmarker⟩
    rw [(mem_glob.1 ((hl p).1 hmem)).2] at hp
    cases hp
  refine ⟨fun p hp => ?_, ?_, fun e he => ?_, fun p hp => ?_,
    fun p hstaged hp hmarker hout harchive => ?_⟩
  · rw [get?_unlinks]
    split
    · rfl
    · rename_i hnot
      rw [Dict.get?_eq_none_iff]
      exact fun hkey => hnot (List.mem_append_left _ ((hl p).2 (mem_glob.2 ⟨hkey, hp⟩)))
  · rw [get?_unlinks, if_pos (List.mem_append_right _ (List.mem_singleton.2 rfl))]
  · rw [hframe _ (marker_ne_output he).symm]
    · exact h.written e he
    · by_contra hp
      exact pending_ne_output (by simpa using hp) he rfl
  · rw [hframe rfl (toArchive_ne_marker (isYml_of_isPending (mem_glob.1 hp).2))]
    exact h.archived p hp
  · rw [hframe hp hmarker]
    exact h.other p hstaged hp hmarker hout harchive

/-- The outputs are put in place, and the same fragments are still pending. -/
theorem Archived.renamed (h : N.Archived t)
    (hstaged : ∀ e ∈ stagedOutputs dir N.outputs, t.get? e.1 = some e.2.2) :
    N.Written (applyAll (N.plan.renameOps dir) t) ∧ ∀ p,
      p ∈ glob (applyAll (N.plan.renameOps dir) t) Path.isPending ↔ p ∈ glob t Path.isPending := by
  obtain ⟨harchived, hwritten⟩ := h.renaming hstaged (List.prefix_refl _)
  rw [map_snd_stagedOutputs] at hwritten
  refine ⟨⟨harchived, hwritten⟩, fun p => ?_⟩
  rw [mem_glob, mem_glob, Dict.mem_keys_iff, Dict.mem_keys_iff]
  refine and_congr_left fun hp => ?_
  rw [get?_applyAll]
  intro op hop hmem
  obtain ⟨e, he, rfl⟩ := List.mem_map.1 hop
  have hout : e.2 ∈ N.outputs := map_snd_stagedOutputs dir N.outputs ▸
    List.mem_map_of_mem he
  rcases List.mem_pair.1 hmem with rfl | rfl
  · obtain ⟨f, -, rfl⟩ := List.mem_map.1 he
    cases hp
  · exact pending_ne_output hp hout rfl

section Run

variable {copies : List (Path × String)} {l : List Path}

/-- What a release does once its marker is in place: it copies fragments, puts the outputs in place
    and deletes the pending fragments and the marker. -/
def runOps (N : NewRelease R git args tree) (dir : String) (copies : List (Path × String))
    (l : List Path) : List Op :=
  copies.flatMap (fun e => writeText e.1 e.2) ++ (N.plan.renameOps dir ++
    (l ++ [Path.marker args.version]).map .unlink)

theorem get?_copied {p : Path} (hcopies : ∀ e ∈ copies, ∃ q, e.1 = args.toArchive q)
    (hp : ∀ q, p ≠ args.toArchive q) :
    (applyAll (copies.flatMap fun e => writeText e.1 e.2) t).get? p = t.get? p :=
  get?_applyAll fun op hop hmem => by
    obtain ⟨e, he, rfl⟩ := List.mem_map.1 (touched_writes hop hmem)
    obtain ⟨q, hpath⟩ := hcopies e he
    exact hp q hpath

variable (h : N.Underway t) (hstaged : ∀ e ∈ stagedOutputs dir N.outputs, t.get? e.1 = some e.2.2)
  (hcopies : ∀ e, e ∈ copies ↔ ∃ q ∈ glob tree Path.isPending,
    e.1 = args.toArchive q ∧ t.get? e.1 = none ∧ tree.get? q = some e.2)
  (hl : ∀ p, p ∈ l ↔ p ∈ glob t Path.isPending)

include hstaged hcopies in
theorem staged_copied : ∀ e ∈ stagedOutputs dir N.outputs,
    (applyAll (copies.flatMap fun e => writeText e.1 e.2) t).get? e.1 = some e.2.2 := by
  intro e he
  rw [get?_copied, hstaged e he]
  · intro e he
    obtain ⟨q, -, hpath, -⟩ := (hcopies e).1 he
    exact ⟨q, hpath⟩
  · obtain ⟨f, -, rfl⟩ := List.mem_map.1 he
    exact nofun

include hcopies hl in
theorem pending_copied (p : Path) : p ∈ l ↔
    p ∈ glob (applyAll (copies.flatMap fun e => writeText e.1 e.2) t) Path.isPending := by
  rw [hl p, mem_glob, mem_glob, Dict.mem_keys_iff, Dict.mem_keys_iff]
  refine and_congr_left fun hp => ?_
  rw [get?_copied]
  · intro e he
    obtain ⟨q, -, hpath, -⟩ := (hcopies e).1 he
    exact ⟨q, hpath⟩
  · exact fun q => pending_ne_toArchive hp

include h hstaged hcopies hl

/-- A release that is not interrupted is done. -/
theorem Underway.run : N.Released (applyAll (N.runOps dir copies l) t) := by
  obtain ⟨hwritten, hpending⟩ := (h.copied hcopies).renamed (staged_copied hstaged hcopies)
  rw [runOps, applyAll_append, applyAll_append]
  exact hwritten.released fun p => (pending_copied hcopies hl p).trans (hpending p).symm

/-- A release that is interrupted is underway or done, or in the midst of a copy. -/
theorem Underway.interrupt {pre : List Op} (hpre : pre <+: N.runOps dir copies l) :
    N.Underway (applyAll pre t) ∨ N.Released (applyAll pre t) ∨ N.Torn (applyAll pre t) := by
  rcases prefix_or_append hpre with hpre | ⟨rest, rfl, hrest⟩
  · by_cases hwhole : Whole args tree (applyAll pre t)
    · refine .inl (h.copying (fun e he => ?_) hpre hwhole)
      obtain ⟨q, hq, hpath, hnone, -⟩ := (hcopies e).1 he
      exact ⟨q, hq, hpath, hnone⟩
    · exact .inr (.inr (h.torn hcopies hpre hwhole))
  have harchived := h.copied hcopies
  have hstaged' := staged_copied hstaged hcopies
  rw [applyAll_append]
  rcases prefix_or_append hrest with hrename | ⟨delete, rfl, hdelete⟩
  · obtain ⟨staged, hinitial, rfl⟩ := List.prefix_map_iff.1 hrename
    exact .inl (harchived.renaming hstaged' hinitial).1.toUnderway
  obtain ⟨hwritten, hpending⟩ := harchived.renamed hstaged'
  rw [applyAll_append]
  obtain ⟨deleted, hinitial, rfl⟩ := List.prefix_map_iff.1 hdelete
  rcases List.prefix_concat_iff.1 hinitial with rfl | hinitial
  · exact .inr (.inl (hwritten.released fun p =>
      (pending_copied hcopies hl p).trans (hpending p).symm))
  · refine .inl (hwritten.unlinking fun p hp => ?_).toUnderway
    exact (mem_glob.1 ((hl p).1 (hinitial.subset hp))).2

end Run

end Steps

end NewRelease

end Dnlab.Changes
