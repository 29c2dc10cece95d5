import Dnlab.Services.Generator
import Dnlab.Services.RuntimeLinks.Build

/-!
# The host-side names of a plan

The generator collects the names of all link ends host by host and makes those
of a host unique. The collection is that of the links that `buildRuntimeLinks`
builds from the same plan (`endpointEntries_eq`), so that the name written for
an end is the recorded one, unless the same name came before it on its host
(`getD_uniqueNames`).
-/

namespace Dnlab.Generator

open RuntimeLinks

/-! ## The collection -/

/-- The name of one side of a link, if the side is a device's. -/
def sideEntry (lid : String) (s : Side) : List EndpointEntry :=
  match s.endpoint.node, s.endpoint.iface with
  | some node, some iface => [⟨s.host, (lid, node, iface), s.hostEndpoint⟩]
  | _, _ => []

/-- The names of a link. -/
def entriesOf (L : RuntimeLinkState) : List EndpointEntry :=
  sideEntry L.id (sideA L) ++ sideEntry L.id (sideB L)

section Collection

variable {topo : DistributedTopology} {plan : SchedulePlan} {links : List RuntimeLinkState}

/-- The two passes name an end in the same way. -/
theorem runtimeEndpointName_eq (node iface lid fallback : String) :
    runtimeEndpointName topo node iface lid fallback =
      endpointName topo node iface lid fallback := rfl

/-- The generator collects the names of the links that the plan is built into. -/
theorem endpointEntries_eq (h : buildRuntimeLinks topo plan = .ok links) :
    endpointEntries topo plan = .ok (links.flatMap entriesOf) := by
  obtain ⟨within, across, nets, rfl, hw, ha, hn⟩ := buildRuntimeLinks_eq_ok.1 h
  have hw' : plan.localLinks.zipIdx.mapM (fun e => localEntries topo plan e.2 e.1) =
      .ok (within.map entriesOf) := by
    refine ExceptRules.mapM_map_eq_ok (fun li L hL => ?_) (ExceptRules.mapM_eq_ok.2 hw)
    obtain ⟨nameA, nameB, _, _, hA, hB, -, -, rfl⟩ := localRuntimeLink_eq_ok.1 hL
    unfold localEntries
    simp only [ExceptRules.bind_eq_ok, runtimeEndpointName_eq]
    exact ⟨nameA, hA, nameB, hB, rfl⟩
  have ha' : plan.crossHostLinks.zipIdx.mapM (fun e => crossEntries topo e.2 e.1) =
      .ok (across.map entriesOf) := by
    refine ExceptRules.mapM_map_eq_ok (fun li L hL => ?_) (ExceptRules.mapM_eq_ok.2 ha)
    obtain ⟨nameA, nameB, _, _, hA, hB, -, -, rfl⟩ := crossRuntimeLink_eq_ok.1 hL
    unfold crossEntries
    simp only [ExceptRules.bind_eq_ok, runtimeEndpointName_eq]
    exact ⟨nameA, hA, nameB, hB, rfl⟩
  have hn' : topo.realNetLinks.zipIdx.mapM (fun e => realNetEntries topo e.2 e.1) =
      .ok (nets.map entriesOf) := by
    refine ExceptRules.mapM_map_eq_ok (fun li L hL => ?_) (ExceptRules.mapM_eq_ok.2 hn)
    obtain ⟨name, _, hname, -, rfl⟩ := realNetRuntimeLink_eq_ok.1 hL
    unfold realNetEntries
    simp only [ExceptRules.bind_eq_ok, runtimeEndpointName_eq]
    exact ⟨name, hname, rfl⟩
  unfold endpointEntries
  simp only [ExceptRules.bind_eq_ok]
  refine ⟨_, hw', _, ha', _, hn', ?_⟩
  simp [List.flatMap_def, pure, Except.pure]

/-- The name meant for an end, before the names of its host are made unique. -/
def plainName (topo : DistributedTopology) (node iface lid fallback : String) : String :=
  if (topo.nodes.get? node).any WarmLinks.isEnabled then
    Naming.runtimePortEndpoint topo.name node iface
  else Text.orElse fallback (Naming.runtimeHostEndpoint topo.name node iface lid)

/-- The ends on devices of a plan, each with its host and the name meant for it. -/
def planEnds (topo : DistributedTopology) (plan : SchedulePlan) : List EndpointEntry :=
  let within (l : Link) (i : ℕ) : List EndpointEntry :=
    let lid := linkIdAt .sameHost i
    let host := (plan.hostForVd l.source).getD ""
    [⟨host, (lid, l.source, l.sourceIface), plainName topo l.source l.sourceIface lid ""⟩,
      ⟨host, (lid, l.target, l.targetIface), plainName topo l.target l.targetIface lid ""⟩]
  let across (l : CrossHostLink) (i : ℕ) : List EndpointEntry :=
    let lid := linkIdAt .crossHost i
    [⟨l.sourceHost, (lid, l.sourceNode, l.sourceIface),
        plainName topo l.sourceNode l.sourceIface lid l.sourceHostIface⟩,
      ⟨l.targetHost, (lid, l.targetNode, l.targetIface),
        plainName topo l.targetNode l.targetIface lid l.targetHostIface⟩]
  let net (l : RealNetLink) (i : ℕ) : List EndpointEntry :=
    let lid := linkIdAt .realNet i
    [⟨l.host, (lid, l.node, l.iface), plainName topo l.node l.iface lid (realNetFallback l)⟩]
  (plan.localLinks.zipIdx.flatMap fun (l, i) => within l i) ++
    (plan.crossHostLinks.zipIdx.flatMap fun (l, i) => across l i) ++
    topo.realNetLinks.zipIdx.flatMap fun (l, i) => net l i

theorem plainName_eq {node iface lid fallback name : String}
    (h : endpointName topo node iface lid fallback = .ok name) :
    plainName topo node iface lid fallback = name := by
  obtain ⟨vd, hvd, rfl⟩ := endpointName_eq_ok.1 h
  rw [plainName, WarmLinks.nodeOf_eq_ok.1 hvd, Option.any_some]

/-- The ends of the links that a plan is built into are the ends of the plan. -/
theorem flatMap_entriesOf (h : buildRuntimeLinks topo plan = .ok links) :
    links.flatMap entriesOf = planEnds topo plan := by
  obtain ⟨within, across, nets, rfl, hw, ha, hn⟩ := buildRuntimeLinks_eq_ok.1 h
  rw [List.flatMap_append, List.flatMap_append, planEnds]
  congr 1
  congr 1
  · refine ExceptRules.flatMap_eq_of_forall₂ hw fun li L hL => ?_
    obtain ⟨_, _, _, _, hA, hB, -, -, rfl⟩ := localRuntimeLink_eq_ok.1 hL
    simp only [plainName_eq hA, plainName_eq hB]
    rfl
  · refine ExceptRules.flatMap_eq_of_forall₂ ha fun li L hL => ?_
    obtain ⟨_, _, _, _, hA, hB, -, -, rfl⟩ := crossRuntimeLink_eq_ok.1 hL
    simp only [plainName_eq hA, plainName_eq hB]
    rfl
  · refine ExceptRules.flatMap_eq_of_forall₂ hn fun li L hL => ?_
    obtain ⟨_, _, hA, -, rfl⟩ := realNetRuntimeLink_eq_ok.1 hL
    simp only [plainName_eq hA]
    rfl

/-- No link between hosts runs from a device to itself: both passes over the topology put the
    ends of such a link on different hosts. -/
def Proper (plan : SchedulePlan) : Prop := ∀ l ∈ plan.crossHostLinks, l.sourceNode ≠ l.targetNode

theorem mem_entriesOf {L : RuntimeLinkState} {e : EndpointEntry} :
    e ∈ entriesOf L ↔ ∃ s, (s = sideA L ∨ s = sideB L) ∧ ∃ node iface,
      s.endpoint.node = some node ∧ s.endpoint.iface = some iface ∧
      e = ⟨s.host, (L.id, node, iface), s.hostEndpoint⟩ := by
  have hside : ∀ s : Side, e ∈ sideEntry L.id s ↔ ∃ node iface, s.endpoint.node = some node ∧
      s.endpoint.iface = some iface ∧ e = ⟨s.host, (L.id, node, iface), s.hostEndpoint⟩ := by
    intro s
    unfold sideEntry
    cases s.endpoint.node <;> cases s.endpoint.iface <;> simp
  rw [entriesOf, List.mem_append, hside, hside]
  simp only [or_and_right, exists_or, exists_eq_left]

/-- Where both ends of a link are the same port, they have one host and one name. -/
theorem sides_agree (hp : Proper plan) {L : RuntimeLinkState} (h : Planned topo plan L)
    {node iface : String} (hA : L.endpointA = .vd node iface) (hB : L.endpointB = .vd node iface) :
    L.hostA = L.hostB ∧ L.hostEndpointA = L.hostEndpointB := by
  cases h with
  | within _ hL =>
    obtain ⟨nameA, nameB, _, _, hnA, hnB, -, -, rfl⟩ := localRuntimeLink_eq_ok.1 hL
    simp only [localLinkOf, Endpoint.vd, Endpoint.mk.injEq, Option.some.injEq, and_true] at hA hB
    rw [hA.1, hA.2] at hnA
    rw [hB.1, hB.2] at hnB
    exact ⟨rfl, Except.ok.inj (hnA.symm.trans hnB)⟩
  | across hl hL =>
    obtain ⟨_, _, _, _, -, -, -, -, rfl⟩ := crossRuntimeLink_eq_ok.1 hL
    simp only [crossLinkOf, Endpoint.vd, Endpoint.mk.injEq, Option.some.injEq, and_true] at hA hB
    exact absurd (hA.2.trans hB.2.symm) (hp _ (List.mem_of_getElem? hl))
  | net _ hL =>
    obtain ⟨_, _, -, -, rfl⟩ := realNetRuntimeLink_eq_ok.1 hL
    simp [realNetLinkOf, Endpoint.vd, Endpoint.net] at hB

theorem endpoint_eq_vd {e : Endpoint} (h : e.realNet = none) {node iface : String}
    (hn : e.node = some node) (hi : e.iface = some iface) : e = .vd node iface := by
  obtain ⟨_, _, _⟩ := e
  simp_all [Endpoint.vd]

theorem realNet_none {L : RuntimeLinkState} (h : Planned topo plan L) {s : Side}
    (hs : s = sideA L ∨ s = sideB L) {node : String} (hn : s.endpoint.node = some node) :
    s.endpoint.realNet = none := by
  cases h with
  | within _ hL =>
    obtain ⟨_, _, _, _, -, -, -, -, rfl⟩ := localRuntimeLink_eq_ok.1 hL
    rcases hs with rfl | rfl <;> rfl
  | across _ hL =>
    obtain ⟨_, _, _, _, -, -, -, -, rfl⟩ := crossRuntimeLink_eq_ok.1 hL
    rcases hs with rfl | rfl <;> rfl
  | net _ hL =>
    obtain ⟨_, _, -, -, rfl⟩ := realNetRuntimeLink_eq_ok.1 hL
    rcases hs with rfl | rfl
    · rfl
    · simp [sideB, realNetLinkOf, Endpoint.net] at hn

/-- A key is that of one name on one host. -/
theorem entry_eq_of_key_eq (hp : Proper plan) (hl : buildRuntimeLinks topo plan = .ok links)
    {e e' : EndpointEntry} (he : e ∈ links.flatMap entriesOf) (he' : e' ∈ links.flatMap entriesOf)
    (hk : e.key = e'.key) : e = e' := by
  obtain ⟨L, hL, heL⟩ := List.mem_flatMap.1 he
  obtain ⟨L', hL', heL'⟩ := List.mem_flatMap.1 he'
  obtain ⟨s, hs, node, iface, hn, hi, rfl⟩ := mem_entriesOf.1 heL
  obtain ⟨s', hs', node', iface', hn', hi', rfl⟩ := mem_entriesOf.1 heL'
  simp only [Prod.mk.injEq] at hk
  obtain ⟨hid, rfl, rfl⟩ := hk
  have hpl := planned_of_mem hl hL
  obtain rfl := hpl.eq_of_id_eq (planned_of_mem hl hL') hid
  have hv := endpoint_eq_vd (realNet_none hpl hs hn) hn hi
  have hv' := endpoint_eq_vd (realNet_none hpl hs' hn') hn' hi'
  rcases hs with rfl | rfl <;> rcases hs' with rfl | rfl
  · rfl
  · obtain ⟨h₁, h₂⟩ := sides_agree hp hpl hv hv'
    rw [EndpointEntry.mk.injEq]
    exact ⟨h₁, rfl, h₂⟩
  · obtain ⟨h₁, h₂⟩ := sides_agree hp hpl hv' hv
    rw [EndpointEntry.mk.injEq]
    exact ⟨h₁.symm, rfl, h₂.symm⟩
  · rfl

end Collection

/-! ## Making the names of a host unique -/

section Unique

variable {plan : SchedulePlan} {entries : List EndpointEntry}

/-- The names collected on a host. -/
def entriesOn (host : String) (entries : List EndpointEntry) : List EndpointEntry :=
  entries.filter fun e => e.host = host

theorem getD_keysFold (d : Dict String (List EndpointKey)) (host : String) :
    (entries.foldl (fun d e => d.set e.host (d.getD e.host [] ++ [e.key])) d).getD host [] =
      d.getD host [] ++ (entriesOn host entries).map (·.key) := by
  induction entries generalizing d with
  | nil => simp [entriesOn]
  | cons e entries ih =>
    rw [List.foldl_cons, ih, Dict.getD, Dict.get?_set]
    by_cases h : host = e.host
    · subst h
      simp [Dict.getD, entriesOn]
    · have h' : ¬e.host = host := fun h' => h h'.symm
      simp [h, h', Dict.getD, entriesOn]

/-- The keys of a host, in the order of their collection. -/
theorem getD_keysPerHost (host : String) :
    (keysPerHost plan entries).getD host [] = (entriesOn host entries).map (·.key) := by
  rw [keysPerHost, getD_keysFold, Dict.getD, Dict.get?_map]
  cases plan.assignments.get? host <;> rfl

theorem items_keysPerHost {host : String} {keys : List EndpointKey}
    (h : (host, keys) ∈ (keysPerHost plan entries).items) :
    keys = (entriesOn host entries).map (·.key) := by
  have hd : (keysPerHost plan entries).getD host [] = (entriesOn host entries).map (·.key) :=
    getD_keysPerHost host
  rw [← hd, Dict.getD, Dict.get?_eq_some_iff.2 h]
  rfl

theorem get?_foldl_update_of_notMem {kss : List (List EndpointKey)}
    {g : List EndpointKey → List String} {k : EndpointKey} (h : ∀ ks ∈ kss, k ∉ ks)
    (out : Dict EndpointKey String) :
    (kss.foldl (fun out ks => out.update (ks.zip (g ks))) out).get? k = out.get? k := by
  induction kss generalizing out with
  | nil => rfl
  | cons ks kss ih =>
    have hk : k ∉ (ks.zip (g ks)).map Prod.fst := fun hk => by
      obtain ⟨p, hp, rfl⟩ := List.mem_map.1 hk
      exact h ks List.mem_cons_self (List.of_mem_zip hp).1
    rw [List.foldl_cons, ih fun ks' h' => h ks' (List.mem_cons_of_mem _ h'),
      Dict.get?_update_of_notMem hk]

/-- A key zipped with names has the name at its last place. -/
theorem get?_update_zip {d : Dict EndpointKey String} {before after : List EndpointKey}
    {k : EndpointKey} {us : List String} (hlen : us.length = (before ++ k :: after).length)
    (hk : k ∉ after) :
    (d.update ((before ++ k :: after).zip us)).get? k = us[before.length]? := by
  have hlt : before.length < us.length := by
    rw [hlen, List.length_append, List.length_cons]
    omega
  have hus : us = us.take before.length ++ us[before.length] :: us.drop (before.length + 1) := by
    rw [← List.drop_eq_getElem_cons hlt, List.take_append_drop]
  have htake : before.length = (us.take before.length).length := by
    rw [List.length_take]
    omega
  rw [List.getElem?_eq_getElem hlt]
  generalize us[before.length] = u at hus
  rw [hus, List.zip_append htake, List.zip_cons_cons]
  refine Dict.get?_update_of_last fun hmem => ?_
  obtain ⟨p, hp, rfl⟩ := List.mem_map.1 hmem
  exact hk (List.of_mem_zip hp).1

variable (hkey : ∀ e ∈ entries, ∀ e' ∈ entries, e.key = e'.key → e = e')

include hkey

theorem get?_raw {e : EndpointEntry} (he : e ∈ entries) :
    (Dict.ofList (entries.map fun e => (e.key, e.raw))).get? e.key = some e.raw := by
  cases hr : (Dict.ofList (entries.map fun e => (e.key, e.raw))).get? e.key with
  | none =>
    rw [Dict.get?_ofList_eq_none] at hr
    exact absurd (List.mem_map.2 ⟨_, List.mem_map.2 ⟨e, he, rfl⟩, rfl⟩) hr
  | some r =>
    obtain ⟨e', he', h⟩ := List.mem_map.1 (Dict.mem_of_get?_ofList hr)
    rw [Prod.mk.injEq] at h
    rw [← h.2, hkey e' he' e he h.1]

/-- The name of an entry is its raw name, or that with the number of names like it before it on
    its host. -/
theorem getD_uniqueNames {e : EndpointEntry} {before after : List EndpointEntry}
    (hon : entriesOn e.host entries = before ++ e :: after)
    (hlast : e.key ∉ after.map (·.key)) :
    (uniqueNames plan entries).getD e.key "" =
      Naming.nthName e.raw ((before.map (·.raw)).count e.raw) := by
  have hmem : ∀ {x}, x ∈ entriesOn e.host entries → x ∈ entries := fun hx =>
    (List.mem_filter.1 hx).1
  have he : e ∈ entries := hmem (hon ▸ by simp)
  set raw := Dict.ofList (entries.map fun e => (e.key, e.raw)) with hraw
  have hkeys : (entriesOn e.host entries).map (·.key) =
      before.map (·.key) ++ e.key :: after.map (·.key) := by
    rw [hon, List.map_append, List.map_cons]
  have hnames : ((entriesOn e.host entries).map (·.key)).map (fun k => raw.getD k "") =
      before.map (·.raw) ++ e.raw :: after.map (·.raw) := by
    have hmap : ((entriesOn e.host entries).map (·.key)).map (fun k => raw.getD k "") =
        (entriesOn e.host entries).map (·.raw) := by
      rw [List.map_map]
      refine List.map_congr_left fun x hx => ?_
      rw [Function.comp_apply, Dict.getD, hraw, get?_raw hkey (hmem hx), Option.getD_some]
    rw [hmap, hon, List.map_append, List.map_cons]
  -- The list of the host is one of those processed, and no other has the key.
  obtain ⟨ks, hks⟩ : ∃ ks, (e.host, ks) ∈ (keysPerHost plan entries).items := by
    by_contra hn
    have hnone : (keysPerHost plan entries).get? e.host = none :=
      Option.eq_none_iff_forall_ne_some.2 fun ks h => hn ⟨ks, Dict.get?_eq_some_iff.1 h⟩
    have h0 : (keysPerHost plan entries).getD e.host [] = (entriesOn e.host entries).map (·.key) :=
      getD_keysPerHost e.host
    rw [Dict.getD, hnone, hkeys] at h0
    exact absurd h0 (by simp)
  obtain ⟨l₁, l₂, hitems⟩ := List.append_of_mem hks
  have hnodup := (keysPerHost plan entries).nodup_keys
  rw [hitems, List.map_append, List.map_cons, List.nodup_middle, List.nodup_cons] at hnodup
  have hother : ∀ p ∈ l₁ ++ l₂, e.key ∉ p.2 := by
    intro p hp hin
    have hp' : p ∈ (keysPerHost plan entries).items := by
      rw [hitems]
      rcases List.mem_append.1 hp with h | h
      · exact List.mem_append_left _ h
      · exact List.mem_append_right _ (List.mem_cons_of_mem _ h)
    rw [items_keysPerHost hp'] at hin
    obtain ⟨x, hx, hxk⟩ := List.mem_map.1 hin
    have hxe := hkey x (List.mem_filter.1 hx).1 e he hxk
    have hhost : x.host = p.1 := of_decide_eq_true (List.mem_filter.1 hx).2
    refine hnodup.1 ?_
    rw [← List.map_append, ← hxe, hhost]
    exact List.mem_map.2 ⟨p, hp, rfl⟩
  have hvals : (keysPerHost plan entries).values = l₁.map Prod.snd ++ ks :: l₂.map Prod.snd := by
    rw [Dict.values, hitems, List.map_append, List.map_cons]
  have hks' := items_keysPerHost hks
  have hzip : ∀ d : Dict EndpointKey String,
      (d.update (ks.zip (Naming.ensureUnique (ks.map fun k => raw.getD k "")))).get? e.key =
        some (Naming.nthName e.raw ((before.map (·.raw)).count e.raw)) := by
    intro d
    rw [hks', hnames, hkeys, get?_update_zip (by simp) hlast, Naming.getElem?_ensureUnique,
      List.length_map, List.getElem?_append_right (by simp), List.length_map, Nat.sub_self,
      List.getElem?_cons_zero, List.take_left' (by simp)]
    rfl
  unfold uniqueNames
  rw [← hraw, Dict.getD, hvals, List.foldl_append, List.foldl_cons, get?_foldl_update_of_notMem
    (g := fun ks => Naming.ensureUnique (ks.map fun k => raw.getD k "")) (fun ks' h' => ?_), hzip,
    Option.getD_some]
  obtain ⟨p, hp, rfl⟩ := List.mem_map.1 h'
  exact hother p (List.mem_append_right _ hp)

end Unique

end Dnlab.Generator
