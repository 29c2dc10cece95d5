import Dnlab.Services.FlowReconstruct

/-!
# The layers of a leg

A link has the TTL that was observed on it most often (`ttlOf`), and is in the
layer of it (`mem_linksAt`). The layers come with falling TTLs, none is empty, and
every observed link is in exactly one of them.
-/

namespace Dnlab.FlowReconstruct

variable {obs : List PacketObservation} {lid : String} {ttl : ℤ}

/-- Packets were observed on the link. -/
def Observed (obs : List PacketObservation) (lid : String) : Prop := ∃ o ∈ obs, o.linkId = lid

/-- The TTLs observed on a link. -/
def ttlsOn (obs : List PacketObservation) (lid : String) : List ℤ :=
  (obs.filter (·.linkId = lid)).map (·.ttl)

/-- The TTL that stands for a link. -/
def ttlOf (obs : List PacketObservation) (lid : String) : ℤ := mostCommon (ttlsOn obs lid)

theorem getD_obsByLink (obs : List PacketObservation) (lid : String) :
    (obsByLink obs).getD lid [] = obs.filter (·.linkId = lid) := by
  rw [obsByLink, Dict.getD_foldl_push]
  simp [Dict.getD, Dict.get?, Dict.empty]

theorem mem_keys_obsByLink : lid ∈ (obsByLink obs).keys ↔ Observed obs lid := by
  rw [obsByLink, Dict.mem_keys_foldl_push]
  simp [Observed, Dict.keys, Dict.empty]

theorem get?_linkTtl : (linkTtl obs).get? lid = some ttl ↔ Observed obs lid ∧ ttlOf obs lid = ttl := by
  rw [linkTtl, Dict.get?_map, Option.map_eq_some_iff, ttlOf, ttlsOn, ← getD_obsByLink,
    ← mem_keys_obsByLink, Dict.mem_keys_iff]
  constructor
  · rintro ⟨lobs, hget, rfl⟩
    exact ⟨⟨lobs, hget⟩, by rw [Dict.getD, hget]; rfl⟩
  · rintro ⟨⟨lobs, hget⟩, rfl⟩
    exact ⟨lobs, hget, by rw [Dict.getD, hget]; rfl⟩

theorem linksAt_eq (obs : List PacketObservation) (ttl : ℤ) :
    linksAt obs ttl = ((linkTtl obs).items.filter (·.2 = ttl)).map Prod.fst := by
  rw [linksAt, layerLinks, Dict.getD_foldl_push, List.map_eq_flatMap]
  simp [Dict.getD, Dict.get?, Dict.empty]

theorem mem_linksAt : lid ∈ linksAt obs ttl ↔ Observed obs lid ∧ ttlOf obs lid = ttl := by
  rw [← get?_linkTtl, Dict.get?_eq_some_iff, linksAt_eq, List.mem_map]
  constructor
  · rintro ⟨⟨lid, ttl⟩, hmem, rfl⟩
    obtain ⟨hmem, httl⟩ := List.mem_filter.1 hmem
    exact of_decide_eq_true httl ▸ hmem
  · exact fun hmem => ⟨(lid, ttl), List.mem_filter.2 ⟨hmem, decide_eq_true rfl⟩, rfl⟩

theorem nodup_linksAt (obs : List PacketObservation) (ttl : ℤ) : (linksAt obs ttl).Nodup := by
  rw [linksAt_eq]
  exact (linkTtl obs).nodup_keys.sublist (List.filter_sublist.map _)

theorem mem_ttlsDesc : ttl ∈ ttlsDesc obs ↔ ∃ lid, lid ∈ linksAt obs ttl := by
  rw [ttlsDesc, (List.mergeSort_perm _ _).mem_iff, layerLinks, Dict.mem_keys_foldl_push, linksAt_eq]
  simp [Dict.keys, Dict.empty]

theorem nodup_ttlsDesc (obs : List PacketObservation) : (ttlsDesc obs).Nodup :=
  (List.mergeSort_perm _ _).nodup_iff.2 (layerLinks obs).nodup_keys

/-- The TTLs fall. -/
theorem pairwise_ttlsDesc (obs : List PacketObservation) : (ttlsDesc obs).Pairwise (· > ·) := by
  have hle : (ttlsDesc obs).Pairwise fun a b => decide (b ≤ a) = true :=
    List.pairwise_mergeSort (fun a b c => by simp only [decide_eq_true_eq]; omega)
      (fun a b => by simp only [Bool.or_eq_true, decide_eq_true_eq]; omega) _
  exact (hle.and (nodup_ttlsDesc obs)).imp fun ⟨hle, hne⟩ =>
    lt_of_le_of_ne (of_decide_eq_true hle) (Ne.symm hne)

theorem ttlsDesc_eq_nil_iff : ttlsDesc obs = [] ↔ obs = [] := by
  constructor
  · intro h
    rcases obs with _ | ⟨o, obs⟩
    · rfl
    · have hmem : ttlOf (o :: obs) o.linkId ∈ ttlsDesc (o :: obs) :=
        mem_ttlsDesc.2 ⟨o.linkId, mem_linksAt.2 ⟨⟨o, List.mem_cons_self, rfl⟩, rfl⟩⟩
      rw [h] at hmem
      exact absurd hmem List.not_mem_nil
  · rintro rfl
    exact List.mergeSort_nil

/-- Falling TTLs, those of the layers, are the TTLs of the leg. -/
theorem ttlsDesc_eq {ttls : List ℤ} (hfall : ttls.Pairwise (· > ·))
    (hmem : ∀ ttl, ttl ∈ ttls ↔ ∃ lid, lid ∈ linksAt obs ttl) : ttlsDesc obs = ttls := by
  have hperm : (ttlsDesc obs).Perm ttls :=
    (List.perm_ext_iff_of_nodup (nodup_ttlsDesc obs) (hfall.imp ne_of_gt)).2 fun ttl =>
      mem_ttlsDesc.trans (hmem ttl).symm
  exact hperm.eq_of_pairwise (fun a b _ _ h h' => absurd h (lt_asymm h')) (pairwise_ttlsDesc obs) hfall

/-- The TTL that is there most often is there. -/
theorem mostCommon_mem {ttls : List ℤ} (h : ttls ≠ []) : mostCommon ttls ∈ ttls := by
  rw [mostCommon]
  rcases hmax : ttls.argmax fun ttl => ttls.count ttl with _ | ttl
  · exact absurd (List.argmax_eq_none.1 hmax) h
  · exact List.argmax_mem hmax

/-- No link is in two layers. -/
theorem nodup_layers (obs : List PacketObservation) :
    ((ttlsDesc obs).map (linksAt obs)).flatten.Nodup := by
  rw [List.nodup_flatten, List.pairwise_map]
  refine ⟨fun lids hlids => ?_, (pairwise_ttlsDesc obs).imp fun hlt lid hlid hlid' => ?_⟩
  · obtain ⟨ttl, -, rfl⟩ := List.mem_map.1 hlids
    exact nodup_linksAt obs ttl
  · exact absurd ((mem_linksAt.1 hlid).2.symm.trans (mem_linksAt.1 hlid').2) (ne_of_gt hlt)

/-- Every observed link is in a layer. -/
theorem mem_layers : lid ∈ ((ttlsDesc obs).map (linksAt obs)).flatten ↔ Observed obs lid := by
  rw [List.mem_flatten]
  constructor
  · rintro ⟨lids, hlids, hlid⟩
    obtain ⟨ttl, -, rfl⟩ := List.mem_map.1 hlids
    exact (mem_linksAt.1 hlid).1
  · intro h
    have hlid : lid ∈ linksAt obs (ttlOf obs lid) := mem_linksAt.2 ⟨h, rfl⟩
    exact ⟨_, List.mem_map_of_mem (mem_ttlsDesc.2 ⟨lid, hlid⟩), hlid⟩

/-! ## States -/

section States

variable {oriented : String → Option (String × String)} {lids : List String}

theorem layerState_ne_unresolved :
    layerState oriented lids ≠ .unresolved ↔ ∀ lid ∈ lids, oriented lid ≠ none := by
  rw [layerState]
  split_ifs with hany hecmp
  · simpa using hany
  · simpa using hany
  · simpa using hany

theorem layerState_eq_ecmp (h : ∀ lid ∈ lids, oriented lid ≠ none) :
    layerState oriented lids = .ecmp ↔ ttlLayerIsEcmp oriented lids = true := by
  rw [layerState, if_neg (by simpa using h)]
  split_ifs with hecmp <;> simp [hecmp]

/-- The layers have no gap, and each is entered only where the one above it is left. -/
def Joined (oriented : String → Option (String × String)) (links : ℤ → List String)
    (ttls : List ℤ) : Prop :=
  ttls.IsChain fun hi lo => hi - lo = 1 ∧ adjacencyOk oriented (links hi) (links lo) = true

variable (oriented) in
theorem segments_resolved (links : ℤ → List String) {ttls : List ℤ} (hdesc : ttls.Pairwise (· > ·)) :
    (∀ s ∈ segments oriented links ttls, s.state ≠ .unresolved) ↔ Joined oriented links ttls := by
  rw [Joined]
  fun_induction segments oriented links ttls with
  | case1 hi lo ttls ih =>
    rw [List.pairwise_cons] at hdesc
    have hlt : hi > lo := hdesc.1 lo List.mem_cons_self
    rw [List.forall_mem_cons, List.isChain_cons_cons, ih hdesc.2]
    refine and_congr_left fun _ => ?_
    split_ifs with hgap hadj
    · exact iff_of_false (fun h => h rfl) fun h => absurd h.1 (by omega)
    · exact iff_of_false (fun h => h rfl) fun h => absurd h.2 (by rw [hadj]; decide)
    · refine iff_of_true ?_ ⟨by omega, by simpa using hadj⟩
      dsimp only
      split_ifs <;> simp
  | case2 ttls hshort =>
    refine iff_of_true (fun _ h => absurd h List.not_mem_nil) ?_
    rcases ttls with _ | ⟨ttl, _ | ⟨lo, ttls⟩⟩
    · exact .nil
    · exact .singleton _
    · exact (hshort ttl lo ttls rfl).elim

end States

end Dnlab.FlowReconstruct
