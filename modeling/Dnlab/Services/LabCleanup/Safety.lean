import Dnlab.Services.LabCleanup
import Mathlib.Data.List.Sort
import Mathlib.Tactic.Tauto

/-!
# What the cleanup may hit

The plan of a lab that is not left alone acts on everything that is attributed
to the lab (`acts_iff`): a container of another lab is safe from it just when
its name is not attributed to it and its state does not name it
(`harmless_iff`). The attribution goes by the longest known lab that a name
starts with, so a device whose name continues the name of its lab to that of
another one is attributed to the other.
-/

namespace Dnlab.LabCleanup

/-! ## Merging artifacts -/

section Dedupe

variable {artifacts : List CleanupArtifact}

/-- The artifacts merged so far, with one more. -/
def mergeInto (merged : Dict (ArtifactKind × String × String) CleanupArtifact)
    (a : CleanupArtifact) : Dict (ArtifactKind × String × String) CleanupArtifact :=
  match merged.get? (artifactKey a) with
  | none => merged.set (artifactKey a) a
  | some prev => merged.set (artifactKey a) (mergeArtifact prev a)

theorem dedupeArtifacts_eq : dedupeArtifacts artifacts = (artifacts.foldl mergeInto ∅).values := rfl

theorem artifactKey_mergeArtifact (prev new : CleanupArtifact) :
    artifactKey (mergeArtifact prev new) = artifactKey prev := rfl

/-- What holds of each artifact and is kept by merging holds of the merged artifacts. -/
theorem forall_mergeInto {P : CleanupArtifact → Prop} {l : List CleanupArtifact}
    {d : Dict (ArtifactKind × String × String) CleanupArtifact}
    (hd : ∀ k m, d.get? k = some m → P m) (hnew : ∀ a ∈ l, P a)
    (hmerge : ∀ prev, ∀ a ∈ l, P prev → P (mergeArtifact prev a)) {k : ArtifactKind × String × String}
    {m : CleanupArtifact} (h : (l.foldl mergeInto d).get? k = some m) : P m := by
  induction l generalizing d with
  | nil => exact hd k m h
  | cons a l ih =>
    refine ih (d := mergeInto d a) ?_ (fun b hb => hnew b (List.mem_cons_of_mem _ hb))
      (fun prev b hb => hmerge prev b (List.mem_cons_of_mem _ hb)) h
    intro k' m' h'
    unfold mergeInto at h'
    split at h' <;> rw [Dict.get?_set] at h' <;> split at h'
    · exact Option.some.inj h' ▸ hnew a List.mem_cons_self
    · exact hd k' m' h'
    · exact Option.some.inj h' ▸ hmerge _ a List.mem_cons_self (hd _ _ ‹_›)
    · exact hd k' m' h'

/-- The merged artifacts have the keys of the artifacts. -/
theorem get?_mergeInto_key {l : List CleanupArtifact}
    {d : Dict (ArtifactKind × String × String) CleanupArtifact}
    (hd : ∀ k m, d.get? k = some m → artifactKey m = k) {k : ArtifactKind × String × String}
    {m : CleanupArtifact} (h : (l.foldl mergeInto d).get? k = some m) : artifactKey m = k := by
  induction l generalizing d with
  | nil => exact hd k m h
  | cons a l ih =>
    refine ih (d := mergeInto d a) ?_ h
    intro k' m' h'
    unfold mergeInto at h'
    split at h' <;> rw [Dict.get?_set] at h' <;> split at h'
    · rename_i hk
      rw [← Option.some.inj h', hk]
    · exact hd k' m' h'
    · rename_i prev hprev hk
      rw [← Option.some.inj h', hk, artifactKey_mergeArtifact, hd _ _ hprev]
    · exact hd k' m' h'

theorem mem_keys_mergeInto {l : List CleanupArtifact}
    {d : Dict (ArtifactKind × String × String) CleanupArtifact}
    {k : ArtifactKind × String × String} :
    k ∈ (l.foldl mergeInto d).keys ↔ k ∈ l.map artifactKey ∨ k ∈ d.keys := by
  induction l generalizing d with
  | nil => simp
  | cons a l ih =>
    have hkeys : k ∈ (mergeInto d a).keys ↔ k = artifactKey a ∨ k ∈ d.keys := by
      unfold mergeInto
      split <;> exact Dict.mem_keys_set
    rw [List.foldl_cons, ih, hkeys, List.map_cons, List.mem_cons]
    tauto

/-- Merging drops no key and adds none. -/
theorem exists_mem_dedupeArtifacts {k : ArtifactKind × String × String} :
    (∃ m ∈ dedupeArtifacts artifacts, artifactKey m = k) ↔ ∃ a ∈ artifacts, artifactKey a = k := by
  have hkey : ∀ k m, (artifacts.foldl mergeInto ∅).get? k = some m → artifactKey m = k :=
    fun k m h => get?_mergeInto_key (d := ∅) (fun k m h => by simp at h) h
  rw [dedupeArtifacts_eq]
  constructor
  · rintro ⟨m, hm, rfl⟩
    obtain ⟨k, hk⟩ := Dict.mem_values_iff.1 hm
    have h := (mem_keys_mergeInto (d := ∅)).1 (Dict.mem_keys_iff.2 ⟨m, hk⟩)
    rw [hkey k m hk]
    exact List.mem_map.1 (h.resolve_right List.not_mem_nil)
  · rintro ⟨a, ha, rfl⟩
    obtain ⟨m, hm⟩ := Dict.mem_keys_iff.1 ((mem_keys_mergeInto (d := ∅)).2
      (.inl (List.mem_map.2 ⟨a, ha, rfl⟩)))
    exact ⟨m, Dict.mem_values_iff.2 ⟨_, hm⟩, hkey _ _ hm⟩

/-- What holds of each artifact and is kept by merging holds of the merged artifacts. -/
theorem forall_mem_dedupeArtifacts {P : CleanupArtifact → Prop} (hnew : ∀ a ∈ artifacts, P a)
    (hmerge : ∀ prev, ∀ a ∈ artifacts, P prev → P (mergeArtifact prev a)) :
    ∀ m ∈ dedupeArtifacts artifacts, P m := by
  intro m hm
  obtain ⟨k, hk⟩ := Dict.mem_values_iff.1 hm
  exact forall_mergeInto (d := ∅) (fun k m h => by simp at h) hnew hmerge hk

end Dedupe

/-! ## The artifacts of a lab -/

section Lab

variable {knownLabs : List String} {listings : Dict String HostListing}
  {states : Dict String DeploymentState} {lab : String}

/-- Something of a kind is seen on a host. -/
def Seen (listings : Dict String HostListing) (kind : ArtifactKind) (host name : String) : Prop :=
  ∃ l, listings.get? host = some l ∧
    match kind with
    | .container => ∃ state age, (name, state, age) ∈ l.containers
    | .network => ∃ count, (name, count) ∈ l.networks
    | .interface => name ∈ l.interfaces
    | .dnsmasq => False

/-- A name is attributed to a lab: to the first known lab, the longest first, that it is one of the
    names of, or else to the one that its shape shows. -/
inductive Attributed (knownLabs : List String) (kind : ArtifactKind) (name : String) : String → Prop
  | known {longer shorter : List String} {lab : String} :
      byLength knownLabs = longer ++ lab :: shorter → isOfLab kind name lab = true →
      (∀ other ∈ longer, isOfLab kind name other = false) → Attributed knownLabs kind name lab
  | shape : (∀ other ∈ knownLabs, isOfLab kind name other = false) →
      Attributed knownLabs kind name (labByShape kind name)

theorem parseArtifactLab_eq_iff {kind : ArtifactKind} {name : String} (hlab : lab ≠ "") :
    parseArtifactLab kind name knownLabs = lab ↔
      name ∉ sharedNetworks ∧ Attributed knownLabs kind name lab := by
  unfold parseArtifactLab
  by_cases hs : name ∈ sharedNetworks
  · rw [if_pos hs]
    exact iff_of_false (fun h => hlab h.symm) fun h => h.1 hs
  · rw [if_neg hs]
    have hmem : ∀ l, l ∈ byLength knownLabs ↔ l ∈ knownLabs := fun l => List.mem_insertionSort _
    rcases hf : (byLength knownLabs).find? (isOfLab kind name) with _ | l
    · rw [List.find?_eq_none] at hf
      constructor
      · rintro rfl
        exact ⟨hs, .shape fun other ho => by simpa using hf other ((hmem other).2 ho)⟩
      · rintro ⟨-, h⟩
        cases h with
        | known h hof _ =>
          exact absurd hof (hf _ (h ▸ List.mem_append_right _ List.mem_cons_self))
        | shape _ => rfl
    · obtain ⟨hof, longer, shorter, h, hlonger⟩ := List.find?_eq_some_iff_append.1 hf
      constructor
      · rintro rfl
        exact ⟨hs, .known h hof fun other ho => by simpa using hlonger other ho⟩
      · rintro ⟨-, h'⟩
        cases h' with
        | @known longer' shorter' _ h' hof' hlonger' =>
          have hf' : (byLength knownLabs).find? (isOfLab kind name) = some lab :=
            List.find?_eq_some_iff_append.2
              ⟨hof', longer', shorter', h', fun other ho => by simpa using hlonger' other ho⟩
          exact Option.some.inj (hf.symm.trans hf')
        | shape hnone =>
          have hmem' := (hmem l).1 (h ▸ List.mem_append_right _ List.mem_cons_self)
          exact absurd hof (by simp [hnone l hmem'])

end Lab

section Plan

variable {inventories : Dict String HostCleanupInventory} {states : Dict String DeploymentState}
  {graceSeconds : ℕ} {lab : String}

/-- What is seen and attributed to a lab. -/
def liveOf (inventories : Dict String HostCleanupInventory) (lab : String) : List CleanupArtifact :=
  ((inventories.values.flatMap (·.artifacts)).filter (·.lab ≠ "")).filter (·.lab = lab)

/-- What the state of a lab names, if it has one. -/
def expectedOf (states : Dict String DeploymentState) (lab : String) : List CleanupArtifact :=
  ((states.get? lab).map expectedArtifactsFromState).getD []

theorem getD_artifactsByLab :
    (artifactsByLab inventories states).getD lab [] =
      liveOf inventories lab ++ expectedOf states lab := by
  unfold artifactsByLab
  dsimp only
  rw [Dict.getD_foldl_push, Dict.getD_foldl_push, Dict.filter_items_eq, List.flatMap_singleton']
  congr 1
  unfold expectedOf
  cases states.get? lab <;> simp

theorem mem_keys_artifactsByLab :
    lab ∈ (artifactsByLab inventories states).keys ↔
      liveOf inventories lab ≠ [] ∨ ∃ st, states.get? lab = some st := by
  unfold artifactsByLab
  dsimp only
  rw [Dict.mem_keys_foldl_push, Dict.mem_keys_foldl_push]
  have hlive : liveOf inventories lab ≠ [] ↔ lab ∈
      ((inventories.values.flatMap (·.artifacts)).filter (·.lab ≠ "")).map (·.lab) := by
    rw [liveOf, ne_eq, List.filter_eq_nil_iff, List.mem_map]
    push Not
    simp only [decide_eq_true_eq]
  rw [hlive, ← Dict.mem_keys_iff]
  simp only [Dict.keys_empty, List.not_mem_nil, or_false]
  exact or_comm

/-- A lab is left alone. -/
def Guarded (inventories : Dict String HostCleanupInventory)
    (states : Dict String DeploymentState) (graceSeconds : ℕ) (lab : String) : Prop :=
  guardReasons inventories graceSeconds lab
    (dedupeArtifacts (liveOf inventories lab ++ expectedOf states lab)) (states.get? lab) ≠ []

/-- The plan of a lab, if there is anything of it. -/
theorem get?_buildCleanupPlan {plan : LabCleanupPlan} :
    (buildCleanupPlan inventories states graceSeconds).get? lab = some plan ↔
      (liveOf inventories lab ≠ [] ∨ ∃ st, states.get? lab = some st) ∧
        plan = planForLab inventories states graceSeconds lab
          (liveOf inventories lab ++ expectedOf states lab) := by
  unfold buildCleanupPlan
  dsimp only
  have hnodup : ((((artifactsByLab inventories states).keys.insertionSort
      fun a b => a.toList ≤ b.toList).map fun lab => (lab, planForLab inventories states
        graceSeconds lab ((artifactsByLab inventories states).getD lab []))).map
          Prod.fst).Nodup := by
    have hsorted := (List.perm_insertionSort (fun a b : String => a.toList ≤ b.toList)
      (artifactsByLab inventories states).keys).nodup_iff.2
        (artifactsByLab inventories states).nodup_keys'
    simpa [Function.comp_def] using hsorted
  rw [Dict.get?_ofList_of_nodup hnodup, List.mem_map, ← mem_keys_artifactsByLab]
  constructor
  · rintro ⟨lab', hlab', h⟩
    obtain ⟨rfl, rfl⟩ := Prod.mk.inj h
    exact ⟨(List.mem_insertionSort _).1 hlab', by rw [getD_artifactsByLab]⟩
  · rintro ⟨hlab, rfl⟩
    exact ⟨lab, (List.mem_insertionSort _).2 hlab, by rw [getD_artifactsByLab]⟩

theorem isProtected_planForLab : (planForLab inventories states graceSeconds lab
      (liveOf inventories lab ++ expectedOf states lab)).isProtected = true ↔
    Guarded inventories states graceSeconds lab := by
  unfold planForLab Guarded
  dsimp only
  split
  · exact iff_of_true rfl ‹_›
  · exact iff_of_false (by simp) ‹_›

end Plan

/-! ## The actions of a plan -/

section Acts

variable {knownLabs : List String} {listings : Dict String HostListing}
  {states : Dict String DeploymentState} {graceSeconds : ℕ} {lab : String}

/-- What is seen is neither shared nor named by a state, but for the networks. -/
theorem of_mem_liveOf {a : CleanupArtifact}
    (h : a ∈ liveOf (collectInventory knownLabs listings) lab) :
    a.lab = lab ∧ lab ≠ "" ∧ a.source = .live ∧ (a.kind ≠ .network → a.shared = false) ∧
      Seen listings a.kind a.host a.name ∧ parseArtifactLab a.kind a.name knownLabs = lab := by
  obtain ⟨hseen, hlab⟩ := List.mem_filter.1 h
  obtain ⟨hany, hne⟩ := List.mem_filter.1 hseen
  obtain rfl := of_decide_eq_true hlab
  obtain ⟨inv, hinv, ha⟩ := List.mem_flatMap.1 hany
  obtain ⟨host, hhost⟩ := Dict.mem_values_iff.1 hinv
  rw [collectInventory, Dict.get?_map, Option.map_eq_some_iff] at hhost
  obtain ⟨l, hl, rfl⟩ := hhost
  simp only [List.mem_append] at ha
  refine ⟨rfl, of_decide_eq_true hne, ?_⟩
  rcases ha with (ha | ha) | ha
  · obtain ⟨⟨name, state, age⟩, hc, ha⟩ := List.mem_filterMap.1 ha
    dsimp only at ha
    split at ha
    · exact absurd ha (by simp)
    · rw [← Option.some.inj ha]
      exact ⟨rfl, fun _ => rfl, ⟨l, hl, state, age, hc⟩, rfl⟩
  · obtain ⟨⟨name, count⟩, hc, ha⟩ := List.mem_filterMap.1 ha
    dsimp only at ha
    split at ha
    · exact absurd ha (by simp)
    · rw [← Option.some.inj ha]
      exact ⟨rfl, fun h => absurd rfl h, ⟨l, hl, count, hc⟩, rfl⟩
  · obtain ⟨name, hc, ha⟩ := List.mem_filterMap.1 ha
    dsimp only at ha
    split at ha
    · exact absurd ha (by simp)
    · rw [← Option.some.inj ha]
      exact ⟨rfl, fun _ => rfl, ⟨l, hl, hc⟩, rfl⟩

/-- What is seen on a host and attributed to a lab is of its artifacts. -/
theorem exists_mem_liveOf {kind : ArtifactKind} {host name : String} (hlab : lab ≠ "") :
    (∃ a ∈ liveOf (collectInventory knownLabs listings) lab, artifactKey a = (kind, host, name)) ↔
      Seen listings kind host name ∧ parseArtifactLab kind name knownLabs = lab := by
  constructor
  · rintro ⟨a, ha, hk⟩
    obtain ⟨-, -, -, -, hseen, hparse⟩ := of_mem_liveOf ha
    simp only [artifactKey, Prod.mk.injEq] at hk
    obtain ⟨rfl, rfl, rfl⟩ := hk
    exact ⟨hseen, hparse⟩
  · rintro ⟨⟨l, hl, hseen⟩, rfl⟩
    have hmem : ∀ a : CleanupArtifact, a.lab = parseArtifactLab kind name knownLabs →
        a ∈ listContainers host knownLabs l.containers ++
          listNetworks host knownLabs l.networks ++ listInterfaces host knownLabs l.interfaces →
        a ∈ liveOf (collectInventory knownLabs listings) (parseArtifactLab kind name knownLabs) := by
      intro a ha hin
      have hinv : (⟨host, l.reachable, listContainers host knownLabs l.containers ++
          listNetworks host knownLabs l.networks ++ listInterfaces host knownLabs l.interfaces⟩ :
            HostCleanupInventory) ∈ (collectInventory knownLabs listings).values := by
        refine Dict.mem_values_iff.2 ⟨host, ?_⟩
        rw [collectInventory, Dict.get?_map, hl]
        rfl
      refine List.mem_filter.2 ⟨List.mem_filter.2 ⟨List.mem_flatMap.2 ⟨_, hinv, hin⟩, ?_⟩, ?_⟩
      · rw [ha]
        simpa using hlab
      · simpa using ha
    cases kind with
    | container =>
      obtain ⟨state, age, hc⟩ := hseen
      refine ⟨_, hmem _ ?_ (List.mem_append_left _ (List.mem_append_left _
        (List.mem_filterMap.2 ⟨_, hc, if_neg hlab⟩))), rfl⟩
      rfl
    | network =>
      obtain ⟨count, hc⟩ := hseen
      refine ⟨_, hmem _ ?_ (List.mem_append_left _ (List.mem_append_right _
        (List.mem_filterMap.2 ⟨_, hc, if_neg fun h => hlab h.1⟩))), rfl⟩
      rfl
    | interface =>
      refine ⟨_, hmem _ ?_ (List.mem_append_right _
        (List.mem_filterMap.2 ⟨_, hseen, if_neg hlab⟩)), rfl⟩
      rfl
    | dnsmasq => exact absurd hseen id

/-- What a state names is neither shared nor a network, and its condition is not known. -/
theorem of_mem_expected {st : DeploymentState} {a : CleanupArtifact}
    (h : a ∈ expectedArtifactsFromState st) :
    a.state = "" ∧ a.shared = false ∧ a.source = .state ∧ a.kind ≠ .network := by
  unfold expectedArtifactsFromState at h
  simp only [List.mem_append, List.mem_map, List.mem_flatMap, Option.mem_toList,
    Option.map_eq_some_iff] at h
  rcases h with ((((((⟨_, _, rfl⟩ | ⟨_, _, rfl⟩) | ⟨_, _, rfl⟩) | ⟨_, _, rfl⟩) | ⟨_, _, rfl⟩) |
    ⟨rn, _, h⟩) | h) | ⟨_, _, _, _, rfl⟩
  · exact ⟨rfl, rfl, rfl, by simp⟩
  · exact ⟨rfl, rfl, rfl, by simp⟩
  · exact ⟨rfl, rfl, rfl, by simp⟩
  · exact ⟨rfl, rfl, rfl, by simp⟩
  · exact ⟨rfl, rfl, rfl, by simp⟩
  · -- A real network has a bridge on each of its hosts and a router.
    unfold realnetArtifacts at h
    dsimp only at h
    rcases List.mem_append.1 h with h | h <;> split at h
    · exact absurd h List.not_mem_nil
    · obtain ⟨_, _, rfl⟩ := List.mem_map.1 h
      exact ⟨rfl, rfl, rfl, by simp⟩
    · exact absurd h List.not_mem_nil
    · obtain rfl := List.mem_singleton.1 h
      exact ⟨rfl, rfl, rfl, by simp⟩
  · cases hm : st.mgmt with
    | none =>
      rw [hm] at h
      exact absurd h List.not_mem_nil
    | some mgmt =>
      rw [hm] at h
      obtain ⟨host, _, h⟩ := List.mem_flatMap.1 h
      simp only [List.mem_cons, List.not_mem_nil, or_false] at h
      rcases h with rfl | rfl | rfl | rfl <;> exact ⟨rfl, rfl, rfl, by simp⟩
  · exact ⟨rfl, rfl, rfl, by simp⟩

/-- An artifact that a plan may act on: it is not shared, and a container has a lab or no known
    condition. -/
def Actionable (a : CleanupArtifact) : Prop :=
  (a.kind ≠ .network → a.shared = false) ∧ (a.lab ≠ "" ∨ a.state = "")

theorem actionable_of_mem {m : CleanupArtifact}
    (h : m ∈ dedupeArtifacts (liveOf (collectInventory knownLabs listings) lab ++
      expectedOf states lab)) : Actionable m := by
  rw [dedupeArtifacts_eq, List.foldl_append] at h
  obtain ⟨k, hk⟩ := Dict.mem_values_iff.1 h
  -- What is seen comes first and has the lab; what the state names adds no condition.
  refine forall_mergeInto (P := Actionable) (fun k m hm => ?_) (fun a ha => ?_) ?_ hk
  · have hlive := forall_mergeInto (d := ∅)
      (P := fun a => (a.kind ≠ .network → a.shared = false) ∧ a.lab ≠ "")
      (fun k m h => by simp at h) (fun a ha => ?_) (fun prev a _ hprev => hprev) hm
    · exact ⟨hlive.1, .inl hlive.2⟩
    · obtain ⟨hlab, hne, -, hshared, -⟩ := of_mem_liveOf ha
      exact ⟨hshared, hlab ▸ hne⟩
  · obtain ⟨st, -, ha⟩ : ∃ st, states.get? lab = some st ∧ a ∈ expectedArtifactsFromState st := by
      unfold expectedOf at ha
      cases hst : states.get? lab with
      | none =>
        rw [hst] at ha
        exact absurd ha List.not_mem_nil
      | some st => exact ⟨st, rfl, by rwa [hst] at ha⟩
    obtain ⟨hstate, hshared, -, -⟩ := of_mem_expected ha
    exact ⟨fun _ => hshared, .inr hstate⟩
  · intro prev a ha hprev
    refine ⟨hprev.1, hprev.2.imp_right fun hstate => ?_⟩
    unfold expectedOf at ha
    cases hst : states.get? lab with
    | none =>
      rw [hst] at ha
      exact absurd ha List.not_mem_nil
    | some st =>
      rw [hst] at ha
      rw [mergeArtifact, (of_mem_expected ha).1, hstate]
      rfl

theorem artifact_of_action {m : CleanupArtifact} {state : Option DeploymentState}
    {act : CleanupAction} (h : actionForArtifact m state = some act) : act.artifact = m := by
  unfold actionForArtifact at h
  split at h
  · exact absurd h (by simp)
  · split at h
    · split at h
      · exact absurd h (by simp)
      · rw [← Option.some.inj h]
    · split at h
      · exact absurd h (by simp)
      · rw [← Option.some.inj h]
    · split at h
      · exact absurd h (by simp)
      · rw [← Option.some.inj h]
    · rw [← Option.some.inj h]

/-- Something is done about every artifact, but for networks and for interfaces that only their
    name gives to a lab without a saved state. -/
theorem isSome_actionForArtifact {m : CleanupArtifact} {state : Option DeploymentState}
    (hm : Actionable m) (hkind : m.kind ≠ .network) :
    (∃ act, actionForArtifact m state = some act) ↔
      (m.kind = .interface → state ≠ none ∨ m.source = .state) := by
  unfold actionForArtifact
  rw [if_neg (by simp [hm.1 hkind])]
  cases hk : m.kind with
  | container =>
    refine iff_of_true ⟨_, if_neg ?_⟩ (by simp)
    rintro ⟨hstate, -, hlab⟩
    refine hlab ?_
    rw [isPerLabContainer, hk]
    simpa using hm.2.resolve_right hstate
  | network => exact absurd hk hkind
  | interface =>
    dsimp only
    by_cases h : state = none ∧ m.source ≠ .state
    · rw [if_pos h]
      simp [h.1, h.2]
    · rw [if_neg h]
      refine iff_of_true ⟨_, rfl⟩ fun _ => ?_
      by_contra hn
      exact h ⟨not_not.1 (not_or.1 hn).1, (not_or.1 hn).2⟩
  | dnsmasq => exact iff_of_true ⟨_, rfl⟩ (by simp)

/-- Something on a host is within the reach of the plan of a lab: it is seen there and attributed
    to the lab, or the state of the lab names it. -/
def Reached (knownLabs : List String) (listings : Dict String HostListing)
    (states : Dict String DeploymentState) (lab : String) (kind : ArtifactKind)
    (host name : String) : Prop :=
  (lab ≠ "" ∧ Seen listings kind host name ∧ name ∉ sharedNetworks ∧
      Attributed knownLabs kind name lab ∧ (kind = .interface → states.get? lab ≠ none)) ∨
    ∃ st, states.get? lab = some st ∧
      ∃ a ∈ expectedArtifactsFromState st, artifactKey a = (kind, host, name)

/-- The plan of a lab acts on something. -/
def ActsOn (inventories : Dict String HostCleanupInventory) (states : Dict String DeploymentState)
    (graceSeconds : ℕ) (lab : String) (kind : ArtifactKind) (host name : String) : Prop :=
  ∃ plan, (buildCleanupPlan inventories states graceSeconds).get? lab = some plan ∧
    plan.isProtected = false ∧ ∃ act ∈ plan.actions, artifactKey act.artifact = (kind, host, name)

theorem mem_expectedOf {a : CleanupArtifact} :
    a ∈ expectedOf states lab ↔ ∃ st, states.get? lab = some st ∧
      a ∈ expectedArtifactsFromState st := by
  unfold expectedOf
  cases states.get? lab <;> simp

/-- The plan of a lab that is not left alone acts on all that is within its reach. -/
theorem actsOn_iff {kind : ArtifactKind} {host name : String} (hkind : kind ≠ .network) :
    ActsOn (collectInventory knownLabs listings) states graceSeconds lab kind host name ↔
      ¬Guarded (collectInventory knownLabs listings) states graceSeconds lab ∧
        Reached knownLabs listings states lab kind host name := by
  set inventories := collectInventory knownLabs listings with hinv
  set artifacts := dedupeArtifacts (liveOf inventories lab ++ expectedOf states lab) with hart
  have hactions : ¬Guarded inventories states graceSeconds lab →
      (planForLab inventories states graceSeconds lab
        (liveOf inventories lab ++ expectedOf states lab)).actions =
          artifacts.filterMap fun a => actionForArtifact a (states.get? lab) := by
    intro hg
    rw [planForLab, if_neg (not_not.2 (not_not.1 hg))]
  constructor
  · rintro ⟨plan, hplan, hprot, act, hact, hkey⟩
    obtain ⟨-, rfl⟩ := get?_buildCleanupPlan.1 hplan
    have hg : ¬Guarded inventories states graceSeconds lab := fun hg => by
      rw [isProtected_planForLab.2 hg] at hprot
      exact absurd hprot (by simp)
    refine ⟨hg, ?_⟩
    rw [hactions hg] at hact
    obtain ⟨m, hm, hsome⟩ := List.mem_filterMap.1 hact
    obtain rfl := artifact_of_action hsome
    have hmkind : act.artifact.kind = kind := congrArg Prod.fst hkey
    obtain ⟨a, ha, hak⟩ := exists_mem_dedupeArtifacts.1 ⟨_, hm, hkey⟩
    rcases List.mem_append.1 ha with ha | ha
    · obtain ⟨-, hne, -⟩ := of_mem_liveOf ha
      obtain ⟨hseen, hparse⟩ := (exists_mem_liveOf hne).1 ⟨a, ha, hak⟩
      obtain ⟨hshared, hattr⟩ := (parseArtifactLab_eq_iff hne).1 hparse
      refine .inl ⟨hne, hseen, hshared, hattr, fun hk hnone => ?_⟩
      -- Without a state, everything known of the lab was seen.
      have hlive : act.artifact.source = .live := by
        refine forall_mem_dedupeArtifacts (P := fun a => a.source = .live) ?_ ?_ _ hm
        · intro b hb
          rcases List.mem_append.1 hb with hb | hb
          · exact (of_mem_liveOf hb).2.2.1
          · obtain ⟨st, hst, -⟩ := mem_expectedOf.1 hb
            exact absurd (hnone.symm.trans hst) (by simp)
        · intro prev b hb hprev
          rcases List.mem_append.1 hb with hb | hb
          · rw [mergeArtifact, (of_mem_liveOf hb).2.2.1]
            exact hprev
          · obtain ⟨st, hst, -⟩ := mem_expectedOf.1 hb
            exact absurd (hnone.symm.trans hst) (by simp)
      rcases (isSome_actionForArtifact (actionable_of_mem hm) (hmkind ▸ hkind)).1 ⟨act, hsome⟩
        (hmkind.trans hk) with h | h
      · exact h hnone
      · rw [hlive] at h
        exact absurd h (by simp)
    · obtain ⟨st, hst, ha⟩ := mem_expectedOf.1 ha
      exact .inr ⟨st, hst, a, ha, hak⟩
  · rintro ⟨hg, hreach⟩
    obtain ⟨hmem, hiface⟩ : (∃ a ∈ liveOf inventories lab ++ expectedOf states lab,
        artifactKey a = (kind, host, name)) ∧ (kind = .interface → states.get? lab ≠ none) := by
      rcases hreach with ⟨hne, hseen, hshared, hattr, hiface⟩ | ⟨st, hst, a, ha, hk⟩
      · obtain ⟨a, ha, hk⟩ := (exists_mem_liveOf hne).2
          ⟨hseen, (parseArtifactLab_eq_iff hne).2 ⟨hshared, hattr⟩⟩
        exact ⟨⟨a, List.mem_append_left _ ha, hk⟩, hiface⟩
      · exact ⟨⟨a, List.mem_append_right _ (mem_expectedOf.2 ⟨st, hst, ha⟩), hk⟩,
          fun _ => by simp [hst]⟩
    obtain ⟨m, hm, hkey⟩ := exists_mem_dedupeArtifacts.2 hmem
    have hmkind : m.kind = kind := congrArg Prod.fst hkey
    obtain ⟨act, hact⟩ : ∃ act, actionForArtifact m (states.get? lab) = some act :=
      (isSome_actionForArtifact (actionable_of_mem hm) (hmkind ▸ hkind)).2 fun hk =>
        .inl (hiface (hmkind.symm.trans hk))
    refine ⟨_, get?_buildCleanupPlan.2 ⟨?_, rfl⟩, ?_, act, ?_, ?_⟩
    · obtain ⟨a, ha, -⟩ := hmem
      rcases List.mem_append.1 ha with ha | ha
      · exact .inl (List.ne_nil_of_mem ha)
      · obtain ⟨st, hst, -⟩ := mem_expectedOf.1 ha
        exact .inr ⟨st, hst⟩
    · exact Bool.eq_false_iff.2 fun h => hg (isProtected_planForLab.1 h)
    · rw [hactions hg]
      exact List.mem_filterMap.2 ⟨m, hm, hact⟩
    · rw [artifact_of_action hact, hkey]

end Acts

/-! ## Other labs -/

section Harm

variable {knownLabs : List String} {listings : Dict String HostListing}
  {states : Dict String DeploymentState} {graceSeconds : ℕ}

/-- No plan acts on the container of a device of another lab, nor on anything that the state of
    another lab names while the plan of that one is protected. -/
def Harmless (inventories : Dict String HostCleanupInventory)
    (states : Dict String DeploymentState) (graceSeconds : ℕ) : Prop :=
  ∀ lab plan, (buildCleanupPlan inventories states graceSeconds).get? lab = some plan →
    plan.isProtected = false → ∀ act ∈ plan.actions, ∀ other st, other ≠ lab →
      states.get? other = some st →
      (∀ r ∈ st.nodeRuntime.values,
        artifactKey act.artifact ≠ (.container, r.host, r.container)) ∧
      ∀ plan', (buildCleanupPlan inventories states graceSeconds).get? other = some plan' →
        plan'.isProtected = true → ∀ a ∈ expectedArtifactsFromState st,
          artifactKey act.artifact ≠ artifactKey a

/-- No lab that is not left alone reaches the container of a device of another lab, nor what the
    state of another lab names that is left alone. -/
def OutOfReach (knownLabs : List String) (listings : Dict String HostListing)
    (states : Dict String DeploymentState) (graceSeconds : ℕ) : Prop :=
  ∀ lab other st, ¬Guarded (collectInventory knownLabs listings) states graceSeconds lab →
    other ≠ lab → states.get? other = some st →
      (∀ r ∈ st.nodeRuntime.values,
        ¬Reached knownLabs listings states lab .container r.host r.container) ∧
      (Guarded (collectInventory knownLabs listings) states graceSeconds other →
        ∀ a ∈ expectedArtifactsFromState st,
          ¬Reached knownLabs listings states lab a.kind a.host a.name)

/-- The plans harm no other lab if and only if nothing of another lab is within their reach. -/
theorem harmless_iff : Harmless (collectInventory knownLabs listings) states graceSeconds ↔
    OutOfReach knownLabs listings states graceSeconds := by
  have hguard : ∀ other st, states.get? other = some st →
      (Guarded (collectInventory knownLabs listings) states graceSeconds other ↔
        ∃ plan', (buildCleanupPlan (collectInventory knownLabs listings) states graceSeconds).get?
          other = some plan' ∧ plan'.isProtected = true) := by
    intro other st hst
    rw [← isProtected_planForLab]
    constructor
    · exact fun h => ⟨_, get?_buildCleanupPlan.2 ⟨.inr ⟨st, hst⟩, rfl⟩, h⟩
    · rintro ⟨plan', hplan', hprot⟩
      obtain ⟨-, rfl⟩ := get?_buildCleanupPlan.1 hplan'
      exact hprot
  constructor
  · intro h lab other st hg hne hst
    constructor
    · intro r hr hreach
      obtain ⟨plan, hplan, hprot, act, hact, hkey⟩ := (actsOn_iff (by simp)).2 ⟨hg, hreach⟩
      exact (h lab plan hplan hprot act hact other st hne hst).1 r hr hkey
    · intro hg' a ha hreach
      obtain ⟨plan, hplan, hprot, act, hact, hkey⟩ :=
        (actsOn_iff (of_mem_expected ha).2.2.2).2 ⟨hg, hreach⟩
      obtain ⟨plan', hplan', hprot'⟩ := (hguard other st hst).1 hg'
      exact (h lab plan hplan hprot act hact other st hne hst).2 plan' hplan' hprot' a ha hkey
  · intro h lab plan hplan hprot act hact other st hne hst
    refine ⟨fun r hr hkey => ?_, fun plan' hplan' hprot' a ha hkey => ?_⟩
    · obtain ⟨hg, hreach⟩ := (actsOn_iff (by simp)).1 ⟨plan, hplan, hprot, act, hact, hkey⟩
      exact (h lab other st hg hne hst).1 r hr hreach
    · obtain ⟨hg, hreach⟩ := (actsOn_iff (of_mem_expected ha).2.2.2).1
        ⟨plan, hplan, hprot, act, hact, hkey⟩
      exact (h lab other st hg hne hst).2 ((hguard other st hst).2 ⟨plan', hplan', hprot'⟩) a ha
        hreach

/-- The lab `a` with a device `b` that runs, and the lab `a-b` with nothing. -/
def hyphenStates : Dict String DeploymentState :=
  .ofList [("a", { labName := "a", topologyFile := "", nodeRuntime := .ofList [("b",
      { node := "b", host := "w1", container := Naming.microVdContainerName "a" "b" })] }),
    ("a-b", { labName := "a-b", topologyFile := "" })]

/-- The container of the device on its host. -/
def hyphenListings : Dict String HostListing :=
  .ofList [("w1", { reachable := true, containers :=
    [(Naming.microVdContainerName "a" "b", "running", none)] })]

/-- The running device of the lab `a` is removed by the plan of the lab `a-b`. -/
theorem not_harmless_hyphen : ¬∀ (knownLabs : List String) (listings : Dict String HostListing)
    (states : Dict String DeploymentState) (graceSeconds : ℕ),
    (∀ lab, lab ∈ knownLabs ↔ lab ∈ states.keys) →
      Harmless (collectInventory knownLabs listings) states graceSeconds := by
  intro h
  have hplan : ((buildCleanupPlan (collectInventory ["a", "a-b"] hyphenListings) hyphenStates 0).get?
      "a-b").map (fun plan => (plan.isProtected, plan.actions.map fun act =>
        artifactKey act.artifact)) =
      some (false, [(.container, "w1", "clab-dnlab-a-b-b")]) := by decide +kernel
  obtain ⟨plan, hplan, heq⟩ := Option.map_eq_some_iff.1 hplan
  obtain ⟨hprot, hacts⟩ := Prod.mk.inj heq
  obtain ⟨act, hact, hkey⟩ := List.mem_map.1 (hacts ▸ List.mem_singleton_self _ :
    (.container, "w1", "clab-dnlab-a-b-b") ∈ plan.actions.map fun act => artifactKey act.artifact)
  have hkeys : hyphenStates.keys = ["a", "a-b"] := by decide +kernel
  have hsafe := (h ["a", "a-b"] hyphenListings hyphenStates 0 (fun lab => by rw [hkeys])
    "a-b" plan hplan hprot act hact "a" _ (by decide) rfl).1 _ (List.mem_singleton_self _)
  exact hsafe hkey

end Harm

end Dnlab.LabCleanup
