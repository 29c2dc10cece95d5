import Dnlab.Services.FlowReconstruct.Rounds

/-!
# The directions of links

Which way the packets of a leg go over its links (`directions`): a run is entered
at the source, or where its second layer is not, and every layer is gone through
in its rounds. When no link of a layer is between two nodes of the same round, a
leg is oriented that way, whatever the order of the sets (`LegIs.ends_eq`).
Otherwise two orders give a link two directions (`Unsettled.exists_both`).
-/

namespace Dnlab.FlowReconstruct

open ExceptRules (bind_eq_ok pure_eq_ok)

/-! ## Runs of layers -/

section Runs

variable (graph : TopoGraph)

/-- The nodes that the layer below is entered from. -/
def next (U L : Set String) : Set String :=
  {n | (∃ arc, Goes graph U L arc ∧ arc.dst = n) ∨ n ∈ U ∧ ∀ arc, ¬Goes graph U L arc}

/-- Some layer of a run has a link between two nodes of the same round. -/
def Unsettled : (U : Set String) → (run : List (List String)) → Prop
  | _, [] => False
  | U, lids :: run => Ambiguous graph U (elems lids) ∨ Unsettled (next graph U (elems lids)) run

/-- A run leads over a link from one node to another. -/
def Leads : (U : Set String) → (run : List (List String)) → Arc → Prop
  | _, [], _ => False
  | U, lids :: run, arc =>
    Goes graph U (elems lids) arc ∨ Leads (next graph U (elems lids)) run arc

/-- The nodes that a run is entered from: the source, or those of its first layer that are not in
    its second one. -/
def entry (sourceNode : String) : (run : List (List String)) → Set String
  | [] => ∅
  | top :: run => {n | graph.Touches top sourceNode ∧ n = sourceNode ∨
      ¬graph.Touches top sourceNode ∧ ∃ second ∈ run.head?,
        graph.Touches top n ∧ ¬graph.Touches second n}

variable {graph} {order : SetOrder} {sourceNode : String} {frontier upstream lids : List String}
  {run run' : List (List String)} {arcs : List Arc} {pairs : Oriented}

theorem elems_nextUpstream (h : Spreads graph frontier lids arcs) (hperm : frontier.Perm upstream)
    (hclear : ¬Ambiguous graph (elems upstream) (elems lids)) :
    elems (nextUpstream upstream arcs) = next graph (elems upstream) (elems lids) := by
  rw [← elems_perm hperm] at hclear ⊢
  have hmem := h.mem_iff hclear
  ext n
  rw [next]
  -- A layer that leads nowhere leaves the frontier as it is.
  by_cases hnil : (arcs.map Arc.dst).dedup = []
  · have harcs : arcs = [] := List.map_eq_nil_iff.1 ((List.dedup_eq_nil _).1 hnil)
    have hnone : ∀ arc, ¬Goes graph (elems frontier) (elems lids) arc := fun arc hgoes =>
      absurd ((hmem arc).2 hgoes) (harcs ▸ List.not_mem_nil)
    rw [nextUpstream, if_pos hnil]
    constructor
    · exact fun hn => .inr ⟨hperm.mem_iff.2 hn, hnone⟩
    · rintro (⟨arc, hgoes, -⟩ | ⟨hn, -⟩)
      · exact absurd hgoes (hnone arc)
      · exact hperm.mem_iff.1 hn
  · rw [nextUpstream, if_neg hnil]
    constructor
    · intro hn
      obtain ⟨arc, harc, rfl⟩ := List.mem_map.1 (List.mem_dedup.1 hn)
      exact .inl ⟨arc, (hmem arc).1 harc, rfl⟩
    · rintro (⟨arc, hgoes, rfl⟩ | ⟨-, hnone⟩)
      · exact List.mem_dedup.2 (List.mem_map_of_mem ((hmem arc).2 hgoes))
      · refine absurd ?_ hnil
        rw [List.eq_nil_iff_forall_not_mem.2 fun arc harc => hnone arc ((hmem arc).1 harc)]
        rfl

theorem mem_orientedOf {p : String × Option (String × String)} :
    p ∈ orientedOf lids arcs ↔ (∃ arc ∈ arcs, p = (arc.linkId, some (arc.src, arc.dst))) ∨
      (p.1 ∈ lids ∧ p.2 = none ∧ ∀ arc ∈ arcs, arc.linkId ≠ p.1) := by
  rw [orientedOf, List.mem_append, List.mem_map, List.mem_map]
  refine or_congr (exists_congr fun arc => and_congr_right fun _ => eq_comm) ?_
  constructor
  · rintro ⟨lid, hlid, rfl⟩
    obtain ⟨hlid, hnot⟩ := List.mem_filter.1 hlid
    refine ⟨hlid, rfl, fun arc harc heq => of_decide_eq_true hnot ?_⟩
    exact List.mem_map.2 ⟨arc, harc, heq⟩
  · rintro ⟨hlid, hnone, hnot⟩
    refine ⟨p.1, List.mem_filter.2 ⟨hlid, decide_eq_true fun hmem => ?_⟩, by rw [← hnone]⟩
    obtain ⟨arc, harc, heq⟩ := List.mem_map.1 hmem
    exact hnot arc harc heq

/-- A run whose layers are settled is oriented in one way only. -/
theorem RunOriented.mem_iff (h : RunOriented graph upstream run pairs)
    (hsettled : ¬Unsettled graph (elems upstream) run) (lid a b : String) :
    (lid, some (a, b)) ∈ pairs ↔ Leads graph (elems upstream) run ⟨lid, a, b⟩ := by
  induction h with
  | nil => exact iff_of_false List.not_mem_nil id
  | @cons upstream frontier lids arcs run more hperm hspreads hmore ih =>
    rw [Unsettled, not_or] at hsettled
    have hmem := hspreads.mem_iff (by rw [elems_perm hperm]; exact hsettled.1) ⟨lid, a, b⟩
    rw [elems_perm hperm] at hmem
    have hnext := elems_nextUpstream hspreads hperm hsettled.1
    rw [List.mem_append, Leads, ← hmem, ih (by rw [hnext]; exact hsettled.2), hnext, mem_orientedOf]
    -- The arcs of the layer are what it has ends for.
    refine or_congr_left ?_
    constructor
    · rintro (⟨arc, harc, heq⟩ | ⟨-, hnone, -⟩)
      · obtain ⟨rfl, hends⟩ := Prod.mk.inj heq
        obtain ⟨rfl, rfl⟩ := Prod.mk.inj (Option.some.inj hends)
        exact harc
      · exact absurd hnone (Option.some_ne_none _)
    · exact fun harc => .inl ⟨_, harc, rfl⟩

theorem nodup_nextUpstream (h : upstream.Nodup) (arcs : List Arc) :
    (nextUpstream upstream arcs).Nodup := by
  rw [nextUpstream]
  split_ifs
  · exact h
  · exact List.nodup_dedup _

/-- Lists without repetitions of the same elements. -/
theorem perm_of_elems_eq {l m : List String} (hl : l.Nodup) (hm : m.Nodup) (h : elems l = elems m) :
    l.Perm m :=
  (List.perm_ext_iff_of_nodup hl hm).2 fun x => Set.ext_iff.1 h x

/-- Two orders give a link of an unsettled run two directions. -/
theorem Unsettled.exists_both (h : Unsettled graph (elems upstream) run) (hnodup : upstream.Nodup)
    (hknows : ∀ lid ∈ run.flatten, graph.Knows lid) :
    ∃ lid a b, lid ∈ run.flatten ∧ a ≠ b ∧
      (∃ order : SetOrder, ∀ u pairs, u.Nodup → elems u = elems upstream →
        orientRun graph order u run = .ok pairs → (lid, some (a, b)) ∈ pairs) ∧
      ∃ order : SetOrder, ∀ u pairs, u.Nodup → elems u = elems upstream →
        orientRun graph order u run = .ok pairs → (lid, some (b, a)) ∈ pairs := by
  induction run generalizing upstream with
  | nil => exact h.elim
  | cons lids run ih =>
    rw [List.flatten_cons, List.forall_mem_append] at hknows
    rw [List.flatten_cons]
    by_cases hclear : Ambiguous graph (elems upstream) (elems lids)
    · obtain ⟨lid, a, b, hlid, hne, hfirst, hsecond⟩ := FlowReconstruct.exists_both hknows.1 hclear
      -- What may become of the layer does so in some order.
      have hway {arc : Arc} (h : ∃ frontier arcs, frontier.Perm upstream ∧
          Spreads graph frontier lids arcs ∧ arc ∈ arcs) :
          ∃ order : SetOrder, ∀ u pairs, u.Nodup → elems u = elems upstream →
            orientRun graph order u (lids :: run) = .ok pairs →
              (arc.linkId, some (arc.src, arc.dst)) ∈ pairs := by
        obtain ⟨frontier, arcs, hperm, hspreads, harc⟩ := h
        obtain ⟨order, horder⟩ := hspreads.exists_order
        refine ⟨order, fun u pairs hu helems hpairs => ?_⟩
        obtain ⟨arcs', more, harcs, -, rfl⟩ := orientRun_cons hpairs
        rw [horder u (hperm.trans (perm_of_elems_eq hnodup hu helems.symm))] at harcs
        obtain rfl := Except.ok.inj harcs
        exact List.mem_append_left _ (mem_orientedOf.2 (.inl ⟨_, harc, rfl⟩))
      exact ⟨lid, a, b, List.mem_append_left _ hlid, hne, hway hfirst, hway hsecond⟩
    · -- The layer is settled, and so is where the next one is entered.
      obtain ⟨arcs, hspreads⟩ := exists_spreads upstream hknows.1
      have hnext := elems_nextUpstream hspreads (.refl _) hclear
      have hrest := h.resolve_left hclear
      rw [← hnext] at hrest
      obtain ⟨lid, a, b, hlid, hne, ⟨order, horder⟩, order', horder'⟩ :=
        ih hrest (nodup_nextUpstream hnodup arcs) hknows.2
      have hrun {order : SetOrder} {u : List String} {pairs : Oriented} (hu : u.Nodup)
          (helems : elems u = elems upstream)
          (hpairs : orientRun graph order u (lids :: run) = .ok pairs) :
          ∃ u' more, u'.Nodup ∧ elems u' = elems (nextUpstream upstream arcs) ∧
            orientRun graph order u' run = .ok more ∧ more ⊆ pairs := by
        obtain ⟨arcs', more, harcs, hmore, rfl⟩ := orientRun_cons hpairs
        have hnext' := elems_nextUpstream (spreads_of_spread harcs) (order.nodes_perm lids u)
          (by rw [helems]; exact hclear)
        rw [helems, ← hnext] at hnext'
        exact ⟨_, more, nodup_nextUpstream hu arcs', hnext', hmore, List.subset_append_right _ _⟩
      refine ⟨lid, a, b, List.mem_append_right _ hlid, hne,
        ⟨order, fun u pairs hu helems hpairs => ?_⟩, order', fun u pairs hu helems hpairs => ?_⟩
      · obtain ⟨u', more, hu', helems', hmore, hsub⟩ := hrun hu helems hpairs
        exact hsub (horder u' more hu' helems' hmore)
      · obtain ⟨u', more, hu', helems', hmore, hsub⟩ := hrun hu helems hpairs
        exact hsub (horder' u' more hu' helems' hmore)

/-! ## Where a run is entered -/

theorem touches_congr {lids lids' : List String} (h : lids.Perm lids') (n : String) :
    graph.Touches lids n ↔ graph.Touches lids' n :=
  exists_congr fun _ => and_congr_left fun _ => h.mem_iff

theorem entry_congr (h : List.Forall₂ List.Perm run run') :
    entry graph sourceNode run = entry graph sourceNode run' := by
  rcases h with _ | ⟨htop, hrun⟩
  · rfl
  · ext n
    rw [entry, entry]
    refine or_congr (and_congr_left fun _ => touches_congr htop _)
      (and_congr (not_congr (touches_congr htop _)) ?_)
    rcases hrun with _ | ⟨hsecond, -⟩
    · simp
    · simp only [List.head?_cons, Option.mem_some_iff, exists_eq_left']
      exact and_congr (touches_congr htop n) (not_congr (touches_congr hsecond n))

theorem nodup_layerNodes {lids nodes : List String} (h : layerNodes graph lids = .ok nodes) :
    nodes.Nodup := by
  rcases lids with _ | ⟨lid, lids⟩
  · rw [layerNodes, pure_eq_ok] at h
    exact h ▸ List.nodup_nil
  · rw [layerNodes] at h
    obtain ⟨⟨a, b⟩, -, h⟩ := bind_eq_ok.1 h
    obtain ⟨nodes', -, h⟩ := bind_eq_ok.1 h
    exact pure_eq_ok.1 h ▸ List.nodup_dedup _

theorem initialUpstream_spec (h : initialUpstream graph run sourceNode = .ok upstream) :
    upstream.Nodup ∧ elems upstream = entry graph sourceNode run := by
  rcases run with _ | ⟨top, run⟩
  · obtain rfl : [] = upstream := pure_eq_ok.1 h
    exact ⟨List.nodup_nil, Set.eq_empty_iff_forall_notMem.2 fun _ h => absurd h List.not_mem_nil⟩
  · rw [initialUpstream] at h
    obtain ⟨nodes, hnodes, h⟩ := bind_eq_ok.1 h
    have htop (n : String) : n ∈ nodes ↔ graph.Touches top n := mem_layerNodes hnodes
    -- The source is at the first layer, or the second layer decides.
    by_cases hsource : graph.Touches top sourceNode
    · rw [if_pos ((htop _).2 hsource), pure_eq_ok] at h
      subst h
      refine ⟨List.nodup_singleton _, ?_⟩
      ext n
      rw [entry]
      exact (List.mem_singleton.trans (by simp [hsource]))
    · rw [if_neg (mt (htop _).1 hsource)] at h
      rcases run with _ | ⟨second, run⟩
      · obtain rfl := pure_eq_ok.1 h
        refine ⟨List.nodup_nil, ?_⟩
        ext n
        rw [entry]
        exact iff_of_false List.not_mem_nil (by simp [hsource])
      · obtain ⟨nodes', hnodes', h⟩ := bind_eq_ok.1 h
        obtain rfl := pure_eq_ok.1 h
        refine ⟨(nodup_layerNodes hnodes).filter _, ?_⟩
        ext n
        rw [entry]
        refine List.mem_filter.trans ?_
        have hsecond : n ∈ nodes' ↔ graph.Touches second n := mem_layerNodes hnodes'
        rw [htop, decide_eq_true_eq, hsecond]
        simp [hsource]

end Runs

/-! ## Legs -/

section Legs

variable (graph : TopoGraph) (sourceNode : String) (obs : List PacketObservation)

/-- No layer of a leg has a link between two nodes of the same round. -/
def Settled : Prop :=
  ∀ run ∈ runsOf obs, ¬Unsettled graph (entry graph sourceNode run) run

/-- A leg leads over a link from one node to another. -/
def Directed (arc : Arc) : Prop :=
  ∃ run ∈ runsOf obs, Leads graph (entry graph sourceNode run) run arc

open Classical in
/-- The ends of a link, in the direction in which it is gone through. -/
noncomputable def endsBy (goes : Arc → Prop) (lid : String) : Option (String × String) :=
  if h : ∃ ends : String × String, goes ⟨lid, ends.1, ends.2⟩ then some h.choose else none

/-- Where the links of a leg lead from, and where to. -/
noncomputable def directions : String → Option (String × String) :=
  endsBy (Directed graph sourceNode obs)

variable {graph sourceNode obs} {order : SetOrder} {leg : Leg} {pairs : Oriented} {anchorOk : Bool}
  {path : FlowPath}

theorem orient_mem_iff {runs : List (List (List String))}
    (h : orient graph order sourceNode runs = .ok pairs)
    (hsettled : ∀ run ∈ runs, ¬Unsettled graph (entry graph sourceNode run) run) (lid a b : String) :
    (lid, some (a, b)) ∈ pairs ↔
      ∃ run ∈ runs, Leads graph (entry graph sourceNode run) run ⟨lid, a, b⟩ := by
  induction runs generalizing pairs with
  | nil =>
    rw [orient, pure_eq_ok] at h
    subst h
    simp only [List.not_mem_nil, false_and, exists_false]
  | cons run runs ih =>
    rw [List.forall_mem_cons] at hsettled
    rw [orient] at h
    obtain ⟨upstream, hupstream, h⟩ := bind_eq_ok.1 h
    obtain ⟨oriented, horiented, h⟩ := bind_eq_ok.1 h
    obtain ⟨more, hmore, h⟩ := bind_eq_ok.1 h
    obtain rfl := pure_eq_ok.1 h
    have hentry := (initialUpstream_spec hupstream).2
    rw [List.mem_append, List.exists_mem_cons_iff, ih hmore hsettled.2, ← hentry]
    exact or_congr_left
      ((orientRun_spec horiented).mem_iff (by rw [hentry]; exact hsettled.1) lid a b)

/-- A settled leg is oriented in one way only. -/
theorem LegIs.ends_eq (h : LegIs graph order obs leg sourceNode pairs anchorOk path)
    (hsettled : Settled graph sourceNode obs) : pairs.ends = directions graph sourceNode obs := by
  have hends (lid : String) (ends : String × String) :
      pairs.ends lid = some ends ↔ Directed graph sourceNode obs ⟨lid, ends.1, ends.2⟩ := by
    rw [Directed, ← orient_mem_iff h.oriented hsettled, ← Dict.get?_ofList_of_nodup h.nodup_pairs,
      Oriented.ends, Option.join_eq_some_iff]
  funext lid
  rw [directions, endsBy]
  split_ifs with hdirected
  · exact (hends lid _).2 hdirected.choose_spec
  · exact Option.eq_none_iff_forall_ne_some.2 fun ends heq => hdirected ⟨ends, (hends lid ends).1 heq⟩

/-! ## The same layers -/

variable {obs' : List PacketObservation} {run run' : List (List String)}

theorem leads_congr (h : List.Forall₂ List.Perm run run') (U : Set String) :
    Leads graph U run = Leads graph U run' := by
  induction h generalizing U with
  | nil => rfl
  | cons hlids _ ih =>
    funext arc
    rw [Leads, Leads, elems_perm hlids, ih]

theorem unsettled_congr (h : List.Forall₂ List.Perm run run') (U : Set String) :
    Unsettled graph U run = Unsettled graph U run' := by
  induction h generalizing U with
  | nil => rfl
  | cons hlids _ ih => rw [Unsettled, Unsettled, elems_perm hlids, ih]

/-- The runs have the same layers, whose links may come in other orders. -/
theorem exists_run_congr {runs runs' : List (List (List String))} {p : List (List String) → Prop}
    (h : List.Forall₂ (List.Forall₂ List.Perm) runs runs')
    (hp : ∀ run run', List.Forall₂ List.Perm run run' → (p run ↔ p run')) :
    (∃ run ∈ runs, p run) ↔ ∃ run ∈ runs', p run := by
  induction h with
  | nil => rfl
  | cons hrun _ ih => rw [List.exists_mem_cons_iff, List.exists_mem_cons_iff, hp _ _ hrun, ih]

theorem settled_congr (h : List.Forall₂ (List.Forall₂ List.Perm) (runsOf obs) (runsOf obs')) :
    Settled graph sourceNode obs ↔ Settled graph sourceNode obs' := by
  have hruns := exists_run_congr (p := fun run => Unsettled graph (entry graph sourceNode run) run) h
    fun run run' hrun => by rw [entry_congr hrun, unsettled_congr hrun]
  rw [Settled, Settled]
  exact (not_congr hruns).symm.trans (by push Not; rfl) |>.symm.trans (by push Not; rfl)

theorem directions_congr (h : List.Forall₂ (List.Forall₂ List.Perm) (runsOf obs) (runsOf obs')) :
    directions graph sourceNode obs = directions graph sourceNode obs' := by
  have hdirected : Directed graph sourceNode obs = Directed graph sourceNode obs' := by
    funext arc
    exact propext (exists_run_congr h fun run run' hrun => by
      rw [entry_congr hrun, leads_congr hrun])
  rw [directions, directions, hdirected]

end Legs

end Dnlab.FlowReconstruct
