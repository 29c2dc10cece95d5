import Dnlab.Lib.Except
import Dnlab.Services.RuntimeLinks
import Mathlib.Data.List.Forall2

/-!
# The merge of runtime links

What `mergeRuntimeLinks` does to one link depends on the links that were there:
a link with the same unordered pair of endpoints and the same type is continued
(`retain`), any other one is given a new id, and a new VXLAN id if it crosses
hosts (`Merged`). The sets of used ids only grow along the loop, so that a new
id differs from those before it, retained or new (`forall₂_mergeFrom`).

From this: the identifiers of a merge are distinct (`nodup_id_mergeFrom`,
`nodup_vxlanId_mergeFrom`), and merging the same graph again changes nothing.
-/

namespace Dnlab.RuntimeLinks

/-! ## The identity of a link -/

theorem items_eq_of_flatMap_eq {l m : List (String × String)}
    (h : sortKey l = sortKey m) : l = m := by
  induction l generalizing m with
  | nil =>
    cases m with
    | nil => rfl
    | cons e m => simp [sortKey] at h
  | cons e l ih =>
    cases m with
    | nil => simp [sortKey] at h
    | cons e' m =>
      obtain ⟨k, v⟩ := e
      obtain ⟨k', v'⟩ := e'
      simp only [sortKey, List.flatMap_cons, List.cons_append, List.nil_append,
        List.cons.injEq, String.toList_inj] at h
      obtain ⟨rfl, rfl, h⟩ := h
      rw [ih h]

/-- The unordered pairs of endpoints of two links are the same. -/
def SamePair (l m : RuntimeLinkState) : Prop :=
  (l.endpointA = m.endpointA ∧ l.endpointB = m.endpointB) ∨
    (l.endpointA = m.endpointB ∧ l.endpointB = m.endpointA)

theorem endpointKey_comm (a b : Endpoint) : endpointKey a b = endpointKey b a := by
  unfold endpointKey
  by_cases hab : sortKey a.items ≤ sortKey b.items
  · by_cases hba : sortKey b.items ≤ sortKey a.items
    · rw [if_pos hab, if_pos hba, items_eq_of_flatMap_eq (le_antisymm hab hba)]
    · rw [if_pos hab, if_neg hba]
  · rw [if_neg hab, if_pos ((le_total _ _).resolve_left hab)]

theorem endpointKey_eq_or (a b : Endpoint) :
    endpointKey a b = (a.items, b.items) ∨ endpointKey a b = (b.items, a.items) := by
  unfold endpointKey
  split
  · exact .inl rfl
  · exact .inr rfl

/-- The canonical key is the unordered pair of endpoints. -/
theorem canonicalKey_eq_iff {l m : RuntimeLinkState} :
    canonicalKey l = canonicalKey m ↔ SamePair l m := by
  constructor
  · intro h
    unfold canonicalKey at h
    rcases endpointKey_eq_or l.endpointA l.endpointB with hl | hl <;>
      rcases endpointKey_eq_or m.endpointA m.endpointB with hm | hm <;>
      rw [hl, hm, Prod.mk.injEq] at h <;>
      have h₁ := Endpoint.items_injective h.1 <;>
      have h₂ := Endpoint.items_injective h.2
    · exact .inl ⟨h₁, h₂⟩
    · exact .inr ⟨h₁, h₂⟩
    · exact .inr ⟨h₂, h₁⟩
    · exact .inl ⟨h₂, h₁⟩
  · rintro (⟨ha, hb⟩ | ⟨ha, hb⟩)
    · rw [canonicalKey, ha, hb, canonicalKey]
    · rw [canonicalKey, ha, hb, endpointKey_comm, canonicalKey]

theorem mem_of_get?_byKey {links : List RuntimeLinkState} {k : LinkKey} {l : RuntimeLinkState}
    (h : (byKey links).get? k = some l) : l ∈ links ∧ canonicalKey l = k := by
  have hm := Dict.mem_of_get?_ofList h
  simp only [List.mem_map, Prod.mk.injEq] at hm
  obtain ⟨l', hl', rfl, rfl⟩ := hm
  exact ⟨hl', rfl⟩

theorem get?_byKey_isSome {links : List RuntimeLinkState} {l : RuntimeLinkState} (h : l ∈ links) :
    ∃ l', (byKey links).get? (canonicalKey l) = some l' := by
  by_contra hn
  have hnone : (byKey links).get? (canonicalKey l) = none :=
    Option.eq_none_iff_forall_ne_some.2 fun l' hl' => hn ⟨l', hl'⟩
  rw [byKey, Dict.get?_ofList_eq_none] at hnone
  exact hnone (List.mem_map.2 ⟨_, List.mem_map.2 ⟨l, h, rfl⟩, rfl⟩)

/-- Links with distinct endpoints are found by their key. -/
theorem get?_byKey {links : List RuntimeLinkState} (h : (links.map canonicalKey).Nodup)
    {l : RuntimeLinkState} : (byKey links).get? (canonicalKey l) = some l ↔ l ∈ links := by
  refine ⟨fun hl => (mem_of_get?_byKey hl).1, fun hl => ?_⟩
  obtain ⟨l', hl'⟩ := get?_byKey_isSome hl
  obtain ⟨hm, hk⟩ := mem_of_get?_byKey hl'
  rw [hl', List.inj_on_of_nodup_map h hm hl hk]

/-! ## New ids -/

theorem linkIdAt_injective (t : LinkType) : Function.Injective (linkIdAt t) := fun _ _ h =>
  Text.toString_inj.1 ((Text.append_left_inj _ _ _).1 h)

theorem freshId_notMem (t : LinkType) (used : List String) : freshId t used ∉ used :=
  Search.firstFree_notMem (linkIdAt_injective t) used 0

/-! ## One link of a merge -/

/-- The link that `link` continues: the one of the same key, if it has the same type. -/
def priorOf (old : Dict LinkKey RuntimeLinkState) (link : RuntimeLinkState) :
    Option RuntimeLinkState :=
  (old.get? (canonicalKey link)).filter fun prior => prior.linkType = link.linkType

theorem priorOf_eq_some {old : Dict LinkKey RuntimeLinkState} {link prior : RuntimeLinkState} :
    priorOf old link = some prior ↔
      old.get? (canonicalKey link) = some prior ∧ prior.linkType = link.linkType := by
  simp [priorOf, Option.filter_eq_some_iff]

/-- What the merge makes of `link`, while `ids` and `vxlans` are in use. -/
inductive Merged (old : Dict LinkKey RuntimeLinkState) (ids : List String) (vxlans : List ℕ)
    (link : RuntimeLinkState) : RuntimeLinkState → Prop
  | retained {prior : RuntimeLinkState} : priorOf old link = some prior →
      Merged old ids vxlans link (retain link prior)
  | added {id : String} {vxlanId : ℕ} : priorOf old link = none → id ∉ ids →
      (link.linkType = .crossHost → link.vxlanId ≤ vxlanId ∧ vxlanId ∉ vxlans) →
      (link.linkType ≠ .crossHost → vxlanId = link.vxlanId) →
      Merged old ids vxlans link { link with id := id, vxlanId := vxlanId }

theorem Merged.mono {old : Dict LinkKey RuntimeLinkState} {ids ids' : List String}
    {vxlans vxlans' : List ℕ} {link m : RuntimeLinkState} (hi : ids ⊆ ids') (hv : vxlans ⊆ vxlans')
    (h : Merged old ids' vxlans' link m) : Merged old ids vxlans link m := by
  cases h with
  | retained hp => exact .retained hp
  | added hp hid hc hn =>
    exact .added hp (fun h => hid (hi h)) (fun h => ⟨(hc h).1, fun h' => (hc h).2 (hv h')⟩) hn

/-- A merge has one link for each rebuilt one, in order. -/
theorem forall₂_mergeFrom (old : Dict LinkKey RuntimeLinkState) (ids : List String)
    (vxlans : List ℕ) (rebuilt : List RuntimeLinkState) :
    List.Forall₂ (Merged old ids vxlans) rebuilt (mergeFrom old ids vxlans rebuilt) := by
  induction rebuilt generalizing ids vxlans with
  | nil => exact .nil
  | cons link rest ih =>
    rw [mergeFrom, ← priorOf]
    cases hp : priorOf old link with
    | some prior => exact .cons (.retained hp) (ih ids vxlans)
    | none =>
      have hid := freshId_notMem link.linkType ids
      have hids : ids ⊆ freshId link.linkType ids :: ids := List.subset_cons_self _ _
      dsimp only
      split
      · -- A link between hosts also takes the first free VXLAN id from its own on.
        rename_i hc
        have hvx := Search.firstFree_notMem (f := fun i : ℕ => i) (fun _ _ h => h) vxlans
          link.vxlanId
        refine .cons (.added hp hid (fun _ => ⟨Search.le_firstFree _ _ _, hvx⟩)
          fun h => absurd hc h) ?_
        exact (ih _ _).imp fun _ _ h => h.mono hids (List.subset_cons_self _ _)
      · rename_i hc
        refine .cons (.added hp hid (fun h => absurd h hc) fun _ => rfl) ?_
        exact (ih _ _).imp fun _ _ h => h.mono hids fun _ h => h

namespace Merged

variable {old : Dict LinkKey RuntimeLinkState} {ids : List String} {vxlans : List ℕ}
  {link m : RuntimeLinkState}

theorem endpointA (h : Merged old ids vxlans link m) : m.endpointA = link.endpointA := by
  cases h <;> rfl

theorem endpointB (h : Merged old ids vxlans link m) : m.endpointB = link.endpointB := by
  cases h <;> rfl

theorem linkType (h : Merged old ids vxlans link m) : m.linkType = link.linkType := by
  cases h <;> rfl

theorem canonicalKey (h : Merged old ids vxlans link m) :
    canonicalKey m = RuntimeLinks.canonicalKey link := by
  rw [RuntimeLinks.canonicalKey, RuntimeLinks.canonicalKey, h.endpointA, h.endpointB]

theorem priorOf_eq (h : Merged old ids vxlans link m) : priorOf old m = priorOf old link := by
  rw [priorOf, h.canonicalKey, h.linkType, priorOf]

/-- A link that continues another has its identity. -/
theorem eq_retain (h : Merged old ids vxlans link m) {prior : RuntimeLinkState}
    (hp : priorOf old m = some prior) : m = retain link prior := by
  rw [h.priorOf_eq] at hp
  cases h with
  | retained hp' =>
    rw [hp] at hp'
    rw [Option.some.inj hp']
  | added hp' =>
    rw [hp] at hp'
    exact absurd hp' (by simp)

/-- A link that continues no other has identifiers that were not in use. -/
theorem fresh (h : Merged old ids vxlans link m) (hp : priorOf old m = none) :
    m.id ∉ ids ∧ (m.linkType = .crossHost → m.vxlanId ∉ vxlans) := by
  rw [h.priorOf_eq] at hp
  cases h with
  | retained hp' =>
    rw [hp] at hp'
    exact absurd hp' (by simp)
  | added _ hid hv => exact ⟨hid, fun hc => (hv hc).2⟩

end Merged

theorem map_canonicalKey_mergeFrom (old : Dict LinkKey RuntimeLinkState) (ids : List String)
    (vxlans : List ℕ) (rebuilt : List RuntimeLinkState) :
    (mergeFrom old ids vxlans rebuilt).map canonicalKey = rebuilt.map canonicalKey := by
  have h := forall₂_mergeFrom old ids vxlans rebuilt
  generalize mergeFrom old ids vxlans rebuilt = merged at h
  induction h with
  | nil => rfl
  | cons h _ ih => rw [List.map_cons, List.map_cons, h.canonicalKey, ih]

/-! ## Distinct identifiers -/

section Distinct

variable {old : Dict LinkKey RuntimeLinkState} {ids : List String} {vxlans : List ℕ}
  {rebuilt : List RuntimeLinkState}

/-- What a link of `old` is known by is in use, and no other link of `old` is known by it. -/
structure Known {β : Type} (f : RuntimeLinkState → β) (sel : RuntimeLinkState → Prop)
    (old : Dict LinkKey RuntimeLinkState) (used : List β) : Prop where
  used : ∀ k p, old.get? k = some p → sel p → f p ∈ used
  injective : ∀ k k' p p', old.get? k = some p → old.get? k' = some p' → sel p → sel p' →
    f p = f p' → k = k'

theorem Known.cons {β : Type} {f : RuntimeLinkState → β} {sel : RuntimeLinkState → Prop}
    {used : List β} {b : β} (h : Known f sel old used) : Known f sel old (b :: used) :=
  ⟨fun k p hp hs => List.mem_cons_of_mem _ (h.used k p hp hs), h.injective⟩

/-- Links between hosts. -/
def IsCross (l : RuntimeLinkState) : Prop := l.linkType = .crossHost

theorem isCross_of_mem_filter {links : List RuntimeLinkState} {l : RuntimeLinkState}
    (h : l ∈ links.filter fun l => l.linkType = .crossHost) : IsCross l :=
  of_decide_eq_true (p := l.linkType = .crossHost) (List.mem_filter.1 h).2

/-- All links. -/
def IsAny (_ : RuntimeLinkState) : Prop := True

/-- A later link that continues no other differs from the links before it. -/
def FreshAfter (old : Dict LinkKey RuntimeLinkState) (m m' : RuntimeLinkState) : Prop :=
  priorOf old m' = none → m'.id ≠ m.id ∧ (IsCross m → IsCross m' → m'.vxlanId ≠ m.vxlanId)

theorem pairwise_freshAfter (hids : Known (·.id) IsAny old ids)
    (hvx : Known (·.vxlanId) IsCross old vxlans) :
    (mergeFrom old ids vxlans rebuilt).Pairwise (FreshAfter old) := by
  induction rebuilt generalizing ids vxlans with
  | nil => exact .nil
  | cons link rest ih =>
    -- The identifiers of the first link are in use in the rest of the loop.
    have key : ∀ {m : RuntimeLinkState} {ids' : List String} {vxlans' : List ℕ}, m.id ∈ ids' →
        (IsCross m → m.vxlanId ∈ vxlans') → ∀ m' ∈ mergeFrom old ids' vxlans' rest,
        FreshAfter old m m' := by
      intro m ids' vxlans' hid hv m' hm' hnone
      obtain ⟨r, -, hr⟩ := ExceptRules.forall₂_exists (forall₂_mergeFrom old ids' vxlans' rest) hm'
      obtain ⟨hid', hv'⟩ := hr.fresh hnone
      exact ⟨fun h => hid' (h ▸ hid), fun hc hc' h => hv' hc' (h ▸ hv hc)⟩
    rw [mergeFrom, ← priorOf]
    cases hp : priorOf old link with
    | some prior =>
      obtain ⟨hprior, htype⟩ := priorOf_eq_some.1 hp
      refine .cons (key (hids.used _ prior hprior trivial) fun hc => ?_) (ih hids hvx)
      exact hvx.used _ prior hprior (htype.trans hc)
    | none =>
      dsimp only
      split
      · exact .cons (key List.mem_cons_self fun _ => List.mem_cons_self) (ih hids.cons hvx.cons)
      · rename_i hc
        exact .cons (key List.mem_cons_self fun h => absurd h hc) (ih hids.cons hvx)

/-- Where a retained link is known by what the link it continues was, and a new one by something
    that was not in use, the links of a merge are known by different things. -/
theorem nodup_map_of_known {β : Type} {f : RuntimeLinkState → β} {sel : RuntimeLinkState → Prop}
    {used : List β} {merged : List RuntimeLinkState} (hknown : Known f sel old used)
    (hkeys : (merged.map canonicalKey).Nodup)
    (hret : ∀ m ∈ merged, ∀ p, priorOf old m = some p → sel p ∧ f m = f p)
    (hadd : ∀ m ∈ merged, priorOf old m = none → f m ∉ used)
    (hfresh : merged.Pairwise fun m m' => priorOf old m' = none → f m' ≠ f m) :
    (merged.map f).Nodup := by
  rw [List.Nodup, List.pairwise_map] at hkeys ⊢
  refine (hkeys.and hfresh).imp_of_mem fun {m m'} hm hm' ⟨hk, hf⟩ heq => ?_
  cases hp' : priorOf old m' with
  | none => exact hf hp' heq.symm
  | some p' =>
    obtain ⟨hs', hfp'⟩ := hret m' hm' p' hp'
    have hget' := (priorOf_eq_some.1 hp').1
    cases hp : priorOf old m with
    | none => exact hadd m hm hp (heq ▸ hfp' ▸ hknown.used _ _ hget' hs')
    | some p =>
      obtain ⟨hs, hfp⟩ := hret m hm p hp
      refine hk (hknown.injective _ _ _ _ (priorOf_eq_some.1 hp).1 hget' hs hs' ?_)
      rw [← hfp, ← hfp', heq]

variable (hids : Known (·.id) IsAny old ids) (hvx : Known (·.vxlanId) IsCross old vxlans)
  (hkeys : (rebuilt.map canonicalKey).Nodup)

include hids hvx hkeys

/-- The ids of a merge are distinct. -/
theorem nodup_id_mergeFrom : ((mergeFrom old ids vxlans rebuilt).map (·.id)).Nodup := by
  refine nodup_map_of_known hids (by rwa [map_canonicalKey_mergeFrom]) ?_ ?_ ?_
  · intro m hm p hp
    obtain ⟨r, -, hr⟩ := ExceptRules.forall₂_exists (forall₂_mergeFrom old ids vxlans rebuilt) hm
    exact ⟨trivial, congrArg (·.id) (hr.eq_retain hp)⟩
  · intro m hm hp
    obtain ⟨r, -, hr⟩ := ExceptRules.forall₂_exists (forall₂_mergeFrom old ids vxlans rebuilt) hm
    exact (hr.fresh hp).1
  · exact (pairwise_freshAfter hids hvx).imp fun h hp => (h hp).1

/-- The VXLAN ids of a merge are distinct. -/
theorem nodup_vxlanId_mergeFrom :
    (((mergeFrom old ids vxlans rebuilt).filter fun l => l.linkType = .crossHost).map
      (·.vxlanId)).Nodup := by
  have hsub := List.filter_sublist (p := fun l : RuntimeLinkState => l.linkType = .crossHost)
    (l := mergeFrom old ids vxlans rebuilt)
  refine nodup_map_of_known hvx ?_ ?_ ?_ ?_
  · rw [← map_canonicalKey_mergeFrom old ids vxlans rebuilt] at hkeys
    exact hkeys.sublist (hsub.map _)
  · intro m hm p hp
    have hc := isCross_of_mem_filter hm
    obtain ⟨r, -, hr⟩ :=
      ExceptRules.forall₂_exists (forall₂_mergeFrom old ids vxlans rebuilt) (List.mem_filter.1 hm).1
    refine ⟨(priorOf_eq_some.1 hp).2.trans hc, ?_⟩
    exact congrArg (·.vxlanId) (hr.eq_retain hp)
  · intro m hm hp
    obtain ⟨r, -, hr⟩ :=
      ExceptRules.forall₂_exists (forall₂_mergeFrom old ids vxlans rebuilt) (List.mem_filter.1 hm).1
    exact (hr.fresh hp).2 (isCross_of_mem_filter hm)
  · refine ((pairwise_freshAfter hids hvx).sublist hsub).imp_of_mem ?_
    intro m m' hm hm' h hp
    exact (h hp).2 (isCross_of_mem_filter hm) (isCross_of_mem_filter hm')

end Distinct

/-! ## Soundness -/

/-- A list of links with distinct pairs of endpoints, and a VXLAN id just on the links between
    hosts: what a topology and a plan give. -/
structure Desired (links : List RuntimeLinkState) : Prop where
  keys : (links.map canonicalKey).Nodup
  vxlan : ∀ l ∈ links, l.vxlanId ≠ 0 ↔ l.linkType = .crossHost

/-- A list of links that are told apart by their ids and, between hosts, by their VXLAN ids. -/
structure Identified (links : List RuntimeLinkState) : Prop extends Desired links where
  ids : (links.map (·.id)).Nodup
  vxlans : ((links.filter fun l => l.linkType = .crossHost).map (·.vxlanId)).Nodup

/-- `m` is the desired link `r` up to its identity: its ids, its condition and its host-side
    names. -/
structure SameDesired (r m : RuntimeLinkState) : Prop where
  linkType : m.linkType = r.linkType
  endpointA : m.endpointA = r.endpointA
  endpointB : m.endpointB = r.endpointB
  hostA : m.hostA = r.hostA
  hostB : m.hostB = r.hostB
  containerA : m.containerA = r.containerA
  containerB : m.containerB = r.containerB
  warmA : m.warmA = r.warmA
  warmB : m.warmB = r.warmB

/-- `m` has the identity of `p`, its host-side names at the endpoints where `p` has them. -/
structure SameIdentity (p m : RuntimeLinkState) : Prop where
  id : m.id = p.id
  vxlanId : m.vxlanId = p.vxlanId
  state : m.state = p.state
  names : (m.endpointA = p.endpointA ∧ m.endpointB = p.endpointB ∧
      m.hostEndpointA = p.hostEndpointA ∧ m.hostEndpointB = p.hostEndpointB) ∨
    (m.endpointA = p.endpointB ∧ m.endpointB = p.endpointA ∧
      m.hostEndpointA = p.hostEndpointB ∧ m.hostEndpointB = p.hostEndpointA)

/-- `r` desires the link `p`: the same unordered pair of endpoints, and the same type. -/
def Continues (r p : RuntimeLinkState) : Prop := SamePair r p ∧ p.linkType = r.linkType

theorem Merged.sameDesired {old : Dict LinkKey RuntimeLinkState} {ids : List String}
    {vxlans : List ℕ} {r m : RuntimeLinkState} (h : Merged old ids vxlans r m) :
    SameDesired r m := by
  cases h <;> constructor <;> rfl

theorem sameIdentity_retain {r p : RuntimeLinkState} (h : SamePair r p) :
    SameIdentity p (retain r p) := by
  refine ⟨rfl, rfl, rfl, ?_⟩
  by_cases ha : r.endpointA = p.endpointA
  · refine .inl ⟨ha, ?_, if_pos ha, if_pos ha⟩
    rcases h with ⟨-, hb⟩ | ⟨hab, hba⟩
    · exact hb
    · exact hba.trans (ha.symm.trans hab)
  · rcases h with ⟨ha', -⟩ | ⟨hab, hba⟩
    · exact absurd ha' ha
    · exact .inr ⟨hab, hba, if_neg ha, if_neg ha⟩

/-- Continuing a link by what it was rebuilt from changes nothing. -/
theorem Merged.retain_self {old : Dict LinkKey RuntimeLinkState} {ids : List String}
    {vxlans : List ℕ} {r m : RuntimeLinkState} (h : Merged old ids vxlans r m) :
    retain r m = m := by
  cases h <;> simp [retain]

section Previous

variable {previous : List RuntimeLinkState}

theorem priorOf_byKey (h : (previous.map canonicalKey).Nodup) {r p : RuntimeLinkState} :
    priorOf (byKey previous) r = some p ↔ p ∈ previous ∧ Continues r p := by
  rw [priorOf_eq_some, Continues, ← canonicalKey_eq_iff]
  constructor
  · rintro ⟨hget, ht⟩
    obtain ⟨hp, hk⟩ := mem_of_get?_byKey hget
    exact ⟨hp, hk.symm, ht⟩
  · rintro ⟨hp, hk, ht⟩
    exact ⟨hk ▸ (get?_byKey h).2 hp, ht⟩

theorem known_ids (h : Identified previous) :
    Known (·.id) IsAny (byKey previous) (previous.map (·.id)) where
  used _ _ hp _ := List.mem_map_of_mem (mem_of_get?_byKey hp).1
  injective _ _ _ _ hp hp' _ _ heq := by
    obtain ⟨hm, rfl⟩ := mem_of_get?_byKey hp
    obtain ⟨hm', rfl⟩ := mem_of_get?_byKey hp'
    rw [List.inj_on_of_nodup_map h.ids hm hm' heq]

theorem known_vxlans (h : Identified previous) :
    Known (·.vxlanId) IsCross (byKey previous) ((previous.map (·.vxlanId)).filter (· ≠ 0)) where
  used _ p hp hc := by
    have hm := (mem_of_get?_byKey hp).1
    exact List.mem_filter.2 ⟨List.mem_map_of_mem hm, by simpa using (h.vxlan p hm).2 hc⟩
  injective _ _ p p' hp hp' hc hc' heq := by
    obtain ⟨hm, rfl⟩ := mem_of_get?_byKey hp
    obtain ⟨hm', rfl⟩ := mem_of_get?_byKey hp'
    have hcross : ∀ l ∈ previous, IsCross l →
        l ∈ previous.filter fun l => l.linkType = .crossHost := fun l hl hc =>
      List.mem_filter.2 ⟨hl, decide_eq_true hc⟩
    rw [List.inj_on_of_nodup_map h.vxlans (hcross p hm hc) (hcross p' hm' hc') heq]

/-- The merge has one link for each rebuilt one, in order. -/
theorem forall₂_mergeRuntimeLinks (rebuilt previous : List RuntimeLinkState) :
    List.Forall₂ (Merged (byKey previous) (previous.map (·.id))
      ((previous.map (·.vxlanId)).filter (· ≠ 0))) rebuilt (mergeRuntimeLinks rebuilt previous) :=
  forall₂_mergeFrom _ _ _ rebuilt

theorem map_canonicalKey_mergeRuntimeLinks (rebuilt previous : List RuntimeLinkState) :
    (mergeRuntimeLinks rebuilt previous).map canonicalKey = rebuilt.map canonicalKey :=
  map_canonicalKey_mergeFrom _ _ _ rebuilt

/-- Where every rebuilt link is continued by the link in its place, the merge is those links. -/
theorem mergeFrom_of_retained {old : Dict LinkKey RuntimeLinkState} {ids : List String}
    {vxlans : List ℕ} {rebuilt merged : List RuntimeLinkState}
    (h : List.Forall₂ (fun r m => priorOf old r = some m ∧ retain r m = m) rebuilt merged) :
    mergeFrom old ids vxlans rebuilt = merged := by
  induction h with
  | nil => rfl
  | cons h _ ih =>
    obtain ⟨hp, hr⟩ := h
    unfold priorOf at hp
    rw [mergeFrom, hp, ih]
    exact congrArg (· :: _) hr

/-- Merging the same graph again changes nothing. -/
theorem mergeRuntimeLinks_again {rebuilt : List RuntimeLinkState}
    (hkeys : (rebuilt.map canonicalKey).Nodup) :
    mergeRuntimeLinks rebuilt (mergeRuntimeLinks rebuilt previous) =
      mergeRuntimeLinks rebuilt previous := by
  have hall := forall₂_mergeRuntimeLinks rebuilt previous
  rw [← map_canonicalKey_mergeRuntimeLinks rebuilt previous] at hkeys
  refine mergeFrom_of_retained ?_
  have hmem : ∀ m ∈ mergeRuntimeLinks rebuilt previous, ∀ r,
      Merged (byKey previous) (previous.map (·.id))
        ((previous.map (·.vxlanId)).filter (· ≠ 0)) r m →
      priorOf (byKey (mergeRuntimeLinks rebuilt previous)) r = some m ∧ retain r m = m := by
    intro m hm r hr
    refine ⟨(priorOf_byKey hkeys).2 ⟨hm, ?_, hr.linkType⟩, hr.retain_self⟩
    exact canonicalKey_eq_iff.1 hr.canonicalKey.symm
  generalize mergeRuntimeLinks rebuilt previous = merged at hall hmem
  refine (List.forall₂_iff_get.1 hall).elim fun hlen hget => List.forall₂_iff_get.2 ⟨hlen, ?_⟩
  exact fun i h₁ h₂ => hmem _ (List.get_mem _ _) _ (hget i h₁ h₂)

end Previous

/-- The merge is sound: it has one link for each rebuilt one, in order; a link that was there keeps
    its identity, and any other gets ids that none had; the ids are distinct; and merging the same
    graph again gives the same links. -/
theorem mergeRuntimeLinks_sound (previous rebuilt : List RuntimeLinkState)
    (hprev : Identified previous) (hreb : Desired rebuilt) :
    List.Forall₂ (fun r m => SameDesired r m ∧
        (∀ p ∈ previous, Continues r p → SameIdentity p m) ∧
        ((∀ p ∈ previous, ¬Continues r p) →
          (∀ p ∈ previous, m.id ≠ p.id) ∧
          (m.linkType = .crossHost → ∀ p ∈ previous, m.vxlanId ≠ p.vxlanId)))
      rebuilt (mergeRuntimeLinks rebuilt previous) ∧
    ((mergeRuntimeLinks rebuilt previous).map (·.id)).Nodup ∧
    (((mergeRuntimeLinks rebuilt previous).filter fun l => l.linkType = .crossHost).map
      (·.vxlanId)).Nodup ∧
    mergeRuntimeLinks rebuilt (mergeRuntimeLinks rebuilt previous) =
      mergeRuntimeLinks rebuilt previous := by
  refine ⟨?_, ?_, ?_, mergeRuntimeLinks_again hreb.keys⟩
  · have hall := forall₂_mergeRuntimeLinks rebuilt previous
    refine (List.forall₂_iff_get.1 hall).elim fun hlen hget => List.forall₂_iff_get.2 ⟨hlen, ?_⟩
    intro i h₁ h₂
    have hr := hget i h₁ h₂
    have hreb' := hreb.vxlan _ (List.get_mem rebuilt ⟨i, h₁⟩)
    generalize rebuilt.get ⟨i, h₁⟩ = r at hr hreb'
    generalize (mergeRuntimeLinks rebuilt previous).get ⟨i, h₂⟩ = m at hr
    refine ⟨hr.sameDesired, fun p hp hc => ?_, fun hnone => ?_⟩
    · have hprior := (priorOf_byKey hprev.keys).2 ⟨hp, hc⟩
      rw [← hr.priorOf_eq] at hprior
      exact hr.eq_retain hprior ▸ sameIdentity_retain hc.1
    · have hprior : priorOf (byKey previous) r = none :=
        Option.eq_none_iff_forall_ne_some.2 fun p hp =>
          hnone p ((priorOf_byKey hprev.keys).1 hp).1 ((priorOf_byKey hprev.keys).1 hp).2
      cases hr with
      | retained hp =>
        rw [hprior] at hp
        exact absurd hp (by simp)
      | added _ hid hv =>
        refine ⟨fun p hp heq => hid (List.mem_map.2 ⟨p, hp, heq.symm⟩), fun hc p hp heq => ?_⟩
        obtain ⟨hle, hfree⟩ := hv hc
        have hpos := hreb'.2 hc
        refine hfree (List.mem_filter.2 ⟨List.mem_map.2 ⟨p, hp, heq.symm⟩, ?_⟩)
        exact decide_eq_true fun h0 => hpos (Nat.le_zero.1 (h0 ▸ hle))
  · exact nodup_id_mergeFrom (known_ids hprev) (known_vxlans hprev) hreb.keys
  · exact nodup_vxlanId_mergeFrom (known_ids hprev) (known_vxlans hprev) hreb.keys

/-- A tunnel between two hosts that is there, as recorded. -/
def sampleTunnel : RuntimeLinkState :=
  { id := "vx3", linkType := .crossHost, endpointA := .vd "r1" "eth1", endpointB := .vd "r2" "eth1",
    hostA := "w1", hostB := "w2", hostEndpointA := "vxaaa-r1-e1", hostEndpointB := "vxaaa-r2-e1",
    vxlanId := 3007, state := .up }

/-- The same tunnel with its endpoints in the opposite order, and a new one, as rebuilt. -/
def sampleRebuilt : List RuntimeLinkState :=
  [{ id := "vx0", linkType := .crossHost, endpointA := .vd "r2" "eth1",
     endpointB := .vd "r1" "eth1", hostA := "w2", hostB := "w1", hostEndpointA := "vxaaa-r2-e1",
     hostEndpointB := "vxaaa-r1-e1", vxlanId := 3006 },
   { id := "vx1", linkType := .crossHost, endpointA := .vd "r1" "eth2",
     endpointB := .vd "r2" "eth2", hostA := "w1", hostB := "w2", hostEndpointA := "vxaaa-r1-e2",
     hostEndpointB := "vxaaa-r2-e2", vxlanId := 3007 }]

/-- The merge with that tunnel has two ids and two VXLAN ids. -/
theorem mergeRuntimeLinks_sound_sample :
    ((mergeRuntimeLinks sampleRebuilt [sampleTunnel]).map (·.id)).Nodup ∧
      (((mergeRuntimeLinks sampleRebuilt [sampleTunnel]).filter fun l =>
        l.linkType = .crossHost).map (·.vxlanId)).Nodup :=
  have h := mergeRuntimeLinks_sound [sampleTunnel] sampleRebuilt
    ⟨⟨by decide, by decide⟩, by decide, by decide⟩ ⟨by decide, by decide⟩
  ⟨h.2.1, h.2.2.1⟩

end Dnlab.RuntimeLinks
