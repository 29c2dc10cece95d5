import Dnlab.Services.FlowReconstruct.Legs
import Mathlib.Data.Nat.Find
import Mathlib.Data.Set.Insert

/-!
# The rounds of a layer

The nodes of a layer have their turns in rounds: first those that it is entered
from, then those that the links from these lead to, and so on. A link between two
nodes of the same round is oriented by whichever comes first (`exists_both`); if
there is none, the orientation of the layer does not depend on the order of the
sets (`Spreads.mem_iff`).
-/

namespace Dnlab.FlowReconstruct

open ExceptRules (bind_eq_ok pure_eq_ok)

section Rounds

variable (graph : TopoGraph)

/-- The nodes that the links at some nodes lead to. -/
def outs (A L : Set String) : Set String := {d | ∃ a ∈ A, ∃ lid ∈ L, graph.Joins lid a d}

/-- The links that are not at some nodes. -/
def left (A L : Set String) : Set String := {lid ∈ L | ∀ a ∈ A, ∀ b, ¬graph.Joins lid a b}

/-- The nodes that have their turns in a round, and the links that are left by then. -/
def rounds : (A L : Set String) → ℕ → Set String × Set String
  | A, L, 0 => (A, L)
  | A, L, n + 1 => rounds (outs graph A L) (left graph A L) n

/-- A link goes away from a node when it is left until the round of the node. -/
def Goes (A L : Set String) (arc : Arc) : Prop :=
  ∃ n, arc.src ∈ (rounds graph A L n).1 ∧ arc.linkId ∈ (rounds graph A L n).2 ∧
    graph.Joins arc.linkId arc.src arc.dst

/-- A link between two nodes of the same round. -/
def LevelLink (A L : Set String) (lid a b : String) : Prop :=
  a ∈ A ∧ b ∈ A ∧ a ≠ b ∧ lid ∈ L ∧ graph.Joins lid a b

/-- Some round has a link between two of its nodes. -/
def Ambiguous (A L : Set String) : Prop :=
  ∃ n lid a b, LevelLink graph (rounds graph A L n).1 (rounds graph A L n).2 lid a b

end Rounds

section Once

variable {graph : TopoGraph} {A B L : Set String} {arc : Arc} {node : String}

theorem goes_iff :
    Goes graph A L arc ↔
      (arc.src ∈ A ∧ arc.linkId ∈ L ∧ graph.Joins arc.linkId arc.src arc.dst) ∨
        Goes graph (outs graph A L) (left graph A L) arc := by
  constructor
  · rintro ⟨_ | n, h⟩
    · exact .inl h
    · exact .inr ⟨n, h⟩
  · rintro (h | ⟨n, h⟩)
    · exact ⟨0, h⟩
    · exact ⟨n + 1, h⟩

theorem ambiguous_iff :
    Ambiguous graph A L ↔
      (∃ lid a b, LevelLink graph A L lid a b) ∨ Ambiguous graph (outs graph A L) (left graph A L) := by
  constructor
  · rintro ⟨_ | n, h⟩
    · exact .inl h
    · exact .inr ⟨n, h⟩
  · rintro (h | ⟨n, h⟩)
    · exact ⟨0, h⟩
    · exact ⟨n + 1, h⟩

theorem rounds_succ (A L : Set String) (n : ℕ) :
    rounds graph A L (n + 1) =
      (outs graph (rounds graph A L n).1 (rounds graph A L n).2,
        left graph (rounds graph A L n).1 (rounds graph A L n).2) := by
  induction n generalizing A L with
  | zero => rfl
  | succ n ih => exact ih _ _

@[simp] theorem outs_empty (L : Set String) : outs graph ∅ L = ∅ := by
  simp [outs]

@[simp] theorem left_empty (L : Set String) : left graph ∅ L = L := by
  simp [left]

theorem rounds_empty (L : Set String) (n : ℕ) : (rounds graph ∅ L n).1 = ∅ := by
  induction n generalizing L with
  | zero => rfl
  | succ n ih =>
    rw [rounds, outs_empty]
    exact ih _

theorem not_goes_empty (L : Set String) : ¬Goes graph ∅ L arc := by
  rintro ⟨n, hsrc, -⟩
  rw [rounds_empty] at hsrc
  exact hsrc

theorem rounds_no_links (A : Set String) (n : ℕ) : (rounds graph A ∅ n).2 = ∅ := by
  induction n generalizing A with
  | zero => rfl
  | succ n ih =>
    have hleft : left graph A ∅ = ∅ := Set.eq_empty_iff_forall_notMem.2 fun _ h => h.1
    rw [rounds, hleft]
    exact ih _

/-- A layer all whose links are at nodes that it is entered from has one round only. -/
theorem not_ambiguous (hall : ∀ lid ∈ L, ∃ a ∈ A, ∃ b, graph.Joins lid a b)
    (hlevel : ∀ lid a b, ¬LevelLink graph A L lid a b) : ¬Ambiguous graph A L := by
  have hleft : left graph A L = ∅ := Set.eq_empty_iff_forall_notMem.2 fun lid hlid => by
    obtain ⟨a, ha, b, hjoins⟩ := hall lid hlid.1
    exact hlid.2 a ha b hjoins
  rw [ambiguous_iff, hleft]
  rintro (⟨lid, a, b, hlink⟩ | ⟨n, lid, a, b, hlink⟩)
  · exact hlevel lid a b hlink
  · have hlid := hlink.2.2.2.1
    rw [rounds_no_links] at hlid
    exact hlid

/-- When the links at one node of a round have been taken away, those at the others lead to the
    rest. -/
theorem outs_insert (h : ∀ lid a b, ¬LevelLink graph (insert node A) L lid a b) :
    outs graph (insert node A) L = outs graph {node} L ∪ outs graph A (left graph {node} L) := by
  ext d
  constructor
  · rintro ⟨a, ha, lid, hlid, hjoins⟩
    by_cases hat : ∃ b, graph.Joins lid node b
    · obtain ⟨b, hb⟩ := hat
      refine .inl ⟨node, rfl, lid, hlid, ?_⟩
      -- The other end of a link at the node is not of the round, unless it is the node.
      rcases hjoins.eq_or_eq hb with ⟨rfl, rfl⟩ | ⟨rfl, rfl⟩
      · exact hb
      · by_cases hloop : d = a
        · exact hloop ▸ hjoins
        · exact absurd ⟨.inl rfl, ha, hloop, hlid, hb⟩ (h lid d a)
    · refine .inr ⟨a, ?_, lid, ⟨hlid, ?_⟩, hjoins⟩
      · exact ha.resolve_left fun heq => hat ⟨d, heq ▸ hjoins⟩
      · rintro _ rfl b hb
        exact hat ⟨b, hb⟩
  · rintro (⟨_, rfl, lid, hlid, hjoins⟩ | ⟨a, ha, lid, hlid, hjoins⟩)
    · exact ⟨_, .inl rfl, lid, hlid, hjoins⟩
    · exact ⟨a, .inr ha, lid, hlid.1, hjoins⟩

theorem left_insert : left graph (insert node A) L = left graph A (left graph {node} L) := by
  ext lid
  constructor
  · rintro ⟨hlid, hnot⟩
    exact ⟨⟨hlid, fun _ ha => hnot _ (.inl ha)⟩, fun a ha => hnot a (.inr ha)⟩
  · rintro ⟨⟨hlid, hnode⟩, hnot⟩
    refine ⟨hlid, fun a ha => ?_⟩
    rcases ha with rfl | ha
    · exact hnode _ rfl
    · exact hnot a ha

end Once

/-! ## A layer without links between nodes of the same round -/

section Settled

variable {graph : TopoGraph} {node : String} {frontier remaining snapshot : List String}
  {arcs : List Arc}

/-- The elements of a list. -/
def elems (l : List String) : Set String := {x | x ∈ l}

theorem elems_append (l m : List String) : elems (l ++ m) = elems l ∪ elems m := by
  ext x
  exact List.mem_append

theorem elems_cons (x : String) (l : List String) : elems (x :: l) = insert x (elems l) := by
  ext y
  exact List.mem_cons

theorem elems_perm {l m : List String} (h : l.Perm m) : elems l = elems m := by
  ext x
  exact h.mem_iff

theorem mem_leaving {arc : Arc} (hperm : snapshot.Perm remaining) :
    arc ∈ snapshot.filterMap (away graph node) ↔
      arc.src = node ∧ arc.linkId ∈ remaining ∧ graph.Joins arc.linkId arc.src arc.dst := by
  rw [List.mem_filterMap]
  constructor
  · rintro ⟨lid, hlid, haway⟩
    obtain ⟨rfl, rfl, hjoins⟩ := away_eq_some haway
    exact ⟨rfl, hperm.mem_iff.1 hlid, hjoins⟩
  · rintro ⟨rfl, hlid, hjoins⟩
    exact ⟨arc.linkId, hperm.mem_iff.2 hlid, away_of_joins hjoins⟩

/-- What a turn adds to the frontier. -/
theorem elems_pushed (hperm : snapshot.Perm remaining) :
    elems ((snapshot.filterMap (away graph node)).map Arc.dst) = outs graph {node} (elems remaining) := by
  ext d
  constructor
  · intro hd
    obtain ⟨arc, harc, rfl⟩ := List.mem_map.1 hd
    obtain ⟨rfl, hlid, hjoins⟩ := (mem_leaving hperm).1 harc
    exact ⟨_, rfl, arc.linkId, hlid, hjoins⟩
  · rintro ⟨_, rfl, lid, hlid, hjoins⟩
    exact List.mem_map.2 ⟨⟨lid, _, d⟩, (mem_leaving hperm).2 ⟨rfl, hlid, hjoins⟩, rfl⟩

/-- What a turn leaves. -/
theorem elems_left (node : String) (remaining : List String) :
    elems (remaining.filter fun lid => away graph node lid = none) =
      left graph {node} (elems remaining) := by
  ext lid
  constructor
  · intro hmem
    obtain ⟨hlid, haway⟩ := List.mem_filter.1 hmem
    refine ⟨hlid, ?_⟩
    rintro _ rfl b
    exact not_joins_of_away_eq_none (of_decide_eq_true haway) b
  · rintro ⟨hlid, hnot⟩
    exact List.mem_filter.2 ⟨hlid, decide_eq_true (away_eq_none fun b => hnot node rfl b)⟩

/-- In the middle of a round, with some of its nodes to come and some of the next round on the
    frontier. -/
theorem Spreads.mem_iff_of_round (h : Spreads graph frontier remaining arcs) {A B : List String}
    (hfrontier : frontier = A ++ B)
    (hlevel : ∀ lid a b, ¬LevelLink graph (elems A) (elems remaining) lid a b)
    (hrest : ¬Ambiguous graph (elems B ∪ outs graph (elems A) (elems remaining))
      (left graph (elems A) (elems remaining))) (arc : Arc) :
    arc ∈ arcs ↔
      (arc.src ∈ elems A ∧ arc.linkId ∈ elems remaining ∧ graph.Joins arc.linkId arc.src arc.dst) ∨
        Goes graph (elems B ∪ outs graph (elems A) (elems remaining))
          (left graph (elems A) (elems remaining)) arc := by
  induction h generalizing A B with
  | done =>
    obtain ⟨rfl, rfl⟩ := List.append_eq_nil_iff.1 hfrontier.symm
    have hnil : elems [] = ∅ := by simp [elems]
    rw [hnil, outs_empty, Set.union_empty]
    refine iff_of_false List.not_mem_nil ?_
    rintro (⟨hsrc, -⟩ | hgoes)
    · exact hsrc
    · exact not_goes_empty _ hgoes
  | @turn node frontier remaining snapshot more hperm hknows hmore ih =>
    -- A turn of a node of the round.
    have key {A B : List String} (hfrontier : frontier = A ++ B)
        (hlevel : ∀ lid a b, ¬LevelLink graph (elems (node :: A)) (elems remaining) lid a b)
        (hrest : ¬Ambiguous graph (elems B ∪ outs graph (elems (node :: A)) (elems remaining))
          (left graph (elems (node :: A)) (elems remaining))) :
        arc ∈ snapshot.filterMap (away graph node) ++ more ↔
          (arc.src ∈ elems (node :: A) ∧ arc.linkId ∈ elems remaining ∧
            graph.Joins arc.linkId arc.src arc.dst) ∨
          Goes graph (elems B ∪ outs graph (elems (node :: A)) (elems remaining))
            (left graph (elems (node :: A)) (elems remaining)) arc := by
      rw [elems_cons] at hlevel hrest ⊢
      rw [outs_insert hlevel, left_insert, ← Set.union_assoc, ← elems_pushed hperm,
        ← elems_left, ← elems_append] at hrest ⊢
      have hih := ih (A := A) (B := B ++ (snapshot.filterMap (away graph node)).map Arc.dst)
        (by rw [hfrontier, List.append_assoc]) (fun lid a b hlink => ?_) hrest
      · rw [List.mem_append, mem_leaving hperm, hih, ← or_assoc]
        refine or_congr_left ?_
        rw [elems_left]
        constructor
        · rintro (⟨hsrc, h⟩ | ⟨hsrc, hlid, hjoins⟩)
          · exact ⟨.inl hsrc, h⟩
          · exact ⟨.inr hsrc, hlid.1, hjoins⟩
        · rintro ⟨hsrc, hlid, hjoins⟩
          rcases hsrc with hsrc | hsrc
          · exact .inl ⟨hsrc, hlid, hjoins⟩
          · by_cases heq : arc.src = node
            · exact .inl ⟨heq, hlid, hjoins⟩
            · refine .inr ⟨hsrc, ⟨hlid, ?_⟩, hjoins⟩
              rintro _ rfl b hb
              rcases hjoins.eq_or_eq hb with ⟨h, -⟩ | ⟨-, h⟩
              · exact heq h
              · exact hlevel _ _ _ ⟨.inr hsrc, .inl h, h ▸ heq, hlid, hjoins⟩
      · rw [elems_left] at hlink
        exact hlevel lid a b ⟨.inr hlink.1, .inr hlink.2.1, hlink.2.2.1, hlink.2.2.2.1.1, hlink.2.2.2.2⟩
    rcases A with _ | ⟨a, A⟩
    · -- The round is over: the next one begins.
      rw [List.nil_append] at hfrontier
      have hnil : elems [] = ∅ := by simp [elems]
      rw [hnil, outs_empty, left_empty, Set.union_empty, ← hfrontier] at hrest ⊢
      rw [ambiguous_iff, not_or, not_exists] at hrest
      rw [goes_iff, or_iff_right fun hnone => hnone.1]
      have hnext := key (A := frontier) (B := []) (List.append_nil _).symm
        (fun lid a b hlink => hrest.1 lid ⟨a, b, hlink⟩) (by rw [hnil, Set.empty_union]; exact hrest.2)
      rw [hnil, Set.empty_union] at hnext
      exact hnext
    · obtain ⟨rfl, htail⟩ := List.cons.inj hfrontier
      exact key htail hlevel hrest

/-- The orientation of a layer without links between nodes of the same round. -/
theorem Spreads.mem_iff (h : Spreads graph frontier remaining arcs)
    (hclear : ¬Ambiguous graph (elems frontier) (elems remaining)) (arc : Arc) :
    arc ∈ arcs ↔ Goes graph (elems frontier) (elems remaining) arc := by
  rw [ambiguous_iff, not_or, not_exists] at hclear
  have hnil : elems [] = ∅ := by simp [elems]
  have hmem := h.mem_iff_of_round (A := frontier) (B := []) (List.append_nil _).symm
    (fun lid a b hlink => hclear.1 lid ⟨a, b, hlink⟩) (by rw [hnil, Set.empty_union]; exact hclear.2) arc
  rw [hnil, Set.empty_union] at hmem
  rw [goes_iff]
  exact hmem

end Settled

/-! ## A layer with such a link -/

section Both

variable {graph : TopoGraph} {frontier remaining upstream lids : List String}

theorem exists_spreads (frontier : List String) (h : ∀ lid ∈ remaining, graph.Knows lid) :
    ∃ arcs, Spreads graph frontier remaining arcs := by
  obtain ⟨arcs, harcs⟩ := exists_spread asAdded (frontier.length + remaining.length) [] frontier h
  exact ⟨arcs, spread_spec le_rfl harcs⟩

/-- The turns of the nodes of a round, one after the other. -/
theorem exists_round {A B : List String} (hknows : ∀ lid ∈ remaining, graph.Knows lid)
    (hlevel : ∀ lid a b, ¬LevelLink graph (elems A) (elems remaining) lid a b) :
    ∃ arcs pushed rest, elems pushed = outs graph (elems A) (elems remaining) ∧
      elems rest = left graph (elems A) (elems remaining) ∧
      ∀ more, Spreads graph (B ++ pushed) rest more → Spreads graph (A ++ B) remaining (arcs ++ more) := by
  induction A generalizing B remaining with
  | nil =>
    have hnil : elems [] = ∅ := by simp [elems]
    refine ⟨[], [], remaining, by rw [hnil, outs_empty], by rw [hnil, left_empty], fun more hmore => ?_⟩
    rw [List.append_nil] at hmore
    exact hmore
  | cons node A ih =>
    rw [elems_cons] at hlevel ⊢
    have hperm := List.Perm.refl remaining
    have hknows' : ∀ lid ∈ remaining.filter fun lid => away graph node lid = none, graph.Knows lid :=
      fun lid hlid => hknows lid (List.mem_of_mem_filter hlid)
    obtain ⟨arcs, pushed, rest, hpushed, hrest, hmore⟩ := ih
      (B := B ++ (remaining.filterMap (away graph node)).map Arc.dst) hknows' (fun lid a b hlink => by
        rw [elems_left] at hlink
        exact hlevel lid a b
          ⟨.inr hlink.1, .inr hlink.2.1, hlink.2.2.1, hlink.2.2.2.1.1, hlink.2.2.2.2⟩)
    refine ⟨remaining.filterMap (away graph node) ++ arcs,
      (remaining.filterMap (away graph node)).map Arc.dst ++ pushed, rest, ?_, ?_, fun more h => ?_⟩
    · rw [elems_append, hpushed, elems_pushed hperm, elems_left, outs_insert hlevel]
    · rw [hrest, elems_left, left_insert]
    · have hturns := hmore more (by rw [List.append_assoc]; exact h)
      rw [← List.append_assoc] at hturns
      rw [List.append_assoc, List.cons_append]
      exact .turn hperm hknows hturns

/-- Any node can be made the first one of its round, if no link before is between two nodes of the
    same round. -/
theorem exists_first_of_round {n : ℕ} {x : String} (hknows : ∀ lid ∈ lids, graph.Knows lid)
    (hclear : ∀ m < n, ∀ lid a b, ¬LevelLink graph (rounds graph (elems upstream) (elems lids) m).1
      (rounds graph (elems upstream) (elems lids) m).2 lid a b)
    (hx : x ∈ (rounds graph (elems upstream) (elems lids) n).1) :
    ∃ frontier rest remaining arcs, frontier.Perm upstream ∧
      elems (x :: rest) = (rounds graph (elems upstream) (elems lids) n).1 ∧
      elems remaining = (rounds graph (elems upstream) (elems lids) n).2 ∧
      (∀ lid ∈ remaining, lid ∈ lids) ∧
      ∀ more, Spreads graph (x :: rest) remaining more →
        Spreads graph frontier lids (arcs ++ more) := by
  induction n generalizing x with
  | zero =>
    have hperm := List.perm_cons_erase (show x ∈ upstream from hx)
    exact ⟨x :: upstream.erase x, upstream.erase x, lids, [], hperm.symm, elems_perm hperm.symm, rfl,
      fun _ h => h, fun _ h => h⟩
  | succ n ih =>
    -- The node where a link to it begins is made the first one of its own round.
    rw [rounds_succ] at hx
    obtain ⟨p, hp, l, hl, hjoins⟩ := hx
    obtain ⟨frontier, rest, remaining, arcs, hfrontier, hnodes, hlinks, hsub, hmore⟩ :=
      ih (fun m hm => hclear m (by omega)) hp
    have hlevel := hclear n (by omega)
    rw [← hnodes, ← hlinks, elems_cons] at hlevel
    have hl : l ∈ remaining := by
      rw [← hlinks] at hl
      exact hl
    have hperm : (l :: remaining.erase l).Perm remaining := (List.perm_cons_erase hl).symm
    have hknows' : ∀ lid ∈ remaining, graph.Knows lid := fun lid hlid => hknows lid (hsub lid hlid)
    -- And the link the first one of its turn.
    have hhead : (l :: remaining.erase l).filterMap (away graph p) =
        ⟨l, p, x⟩ :: (remaining.erase l).filterMap (away graph p) :=
      List.filterMap_cons_some (away_of_joins hjoins)
    have hleft : ∀ lid ∈ remaining.filter fun lid => away graph p lid = none, graph.Knows lid :=
      fun lid hlid => hknows' lid (List.mem_of_mem_filter hlid)
    obtain ⟨arcs', pushed, remaining', hpushed, hremaining', hmore'⟩ := exists_round (A := rest)
      (B := ((l :: remaining.erase l).filterMap (away graph p)).map Arc.dst)
      hleft (fun lid a b hlink => by
        rw [elems_left] at hlink
        exact hlevel lid a b
          ⟨.inr hlink.1, .inr hlink.2.1, hlink.2.2.1, hlink.2.2.2.1.1, hlink.2.2.2.2⟩)
    refine ⟨frontier, ((remaining.erase l).filterMap (away graph p)).map Arc.dst ++ pushed, remaining',
      arcs ++ ((l :: remaining.erase l).filterMap (away graph p) ++ arcs'), hfrontier, ?_, ?_, ?_,
      fun more h => ?_⟩
    · have hall := elems_append (((l :: remaining.erase l).filterMap (away graph p)).map Arc.dst) pushed
      rw [elems_pushed hperm, hpushed, elems_left, ← outs_insert hlevel, ← elems_cons, hnodes,
        hlinks, hhead] at hall
      rw [rounds_succ]
      exact hall
    · rw [hremaining', elems_left, ← left_insert, ← elems_cons, hnodes, hlinks, rounds_succ]
    · intro lid hlid
      have hmem : lid ∈ elems remaining' := hlid
      rw [hremaining', elems_left] at hmem
      exact hsub lid hmem.1.1
    · rw [List.append_assoc, List.append_assoc]
      refine hmore _ (.turn hperm hknows' (hmore' more ?_))
      rw [hhead]
      exact h

/-- A link between two nodes of the same round may go either way. -/
theorem exists_both (hknows : ∀ lid ∈ lids, graph.Knows lid)
    (h : Ambiguous graph (elems upstream) (elems lids)) :
    ∃ lid a b, lid ∈ lids ∧ a ≠ b ∧
      (∃ frontier arcs, frontier.Perm upstream ∧ Spreads graph frontier lids arcs ∧ ⟨lid, a, b⟩ ∈ arcs) ∧
      ∃ frontier arcs, frontier.Perm upstream ∧ Spreads graph frontier lids arcs ∧
        ⟨lid, b, a⟩ ∈ arcs := by
  classical
  -- The first round with such a link.
  have hfirst := Nat.find_spec h
  have hclear : ∀ m < Nat.find h, ∀ lid a b, ¬LevelLink graph
      (rounds graph (elems upstream) (elems lids) m).1
      (rounds graph (elems upstream) (elems lids) m).2 lid a b :=
    fun m hm lid a b hlink => Nat.find_min h hm ⟨lid, a, b, hlink⟩
  obtain ⟨lid, a, b, ha, hb, hne, hlid, hjoins⟩ := hfirst
  have key {x y : String} (hx : x ∈ (rounds graph (elems upstream) (elems lids) (Nat.find h)).1)
      (hjoins : graph.Joins lid x y) : lid ∈ lids ∧
      ∃ frontier arcs, frontier.Perm upstream ∧ Spreads graph frontier lids arcs ∧
        ⟨lid, x, y⟩ ∈ arcs := by
    obtain ⟨frontier, rest, remaining, arcs, hfrontier, -, hlinks, hsub, hmore⟩ :=
      exists_first_of_round hknows hclear hx
    have hlid' : lid ∈ remaining := by
      rw [← hlinks] at hlid
      exact hlid
    obtain ⟨more, hspreads⟩ := exists_spreads (x :: rest) fun lid hlid => hknows lid (hsub lid hlid)
    exact ⟨hsub lid hlid', frontier, arcs ++ more, hfrontier, hmore more hspreads,
      List.mem_append_right _ (hspreads.mem_of_head hlid' hjoins)⟩
  exact ⟨lid, a, b, (key ha hjoins).1, hne, (key ha hjoins).2, (key hb hjoins.symm).2⟩

end Both

/-! ## Orders -/

section Orders

variable {graph : TopoGraph} {frontier remaining : List String} {arcs : List Arc}

/-- What may become of a layer does so in some order of the links. -/
theorem Spreads.exists_links (h : Spreads graph frontier remaining arcs) (visited : List String)
    (turns : ℕ) (hturns : frontier.length + remaining.length ≤ turns) :
    ∃ links : List String → List String → List String,
      (∀ v r, (links v r).Perm r) ∧
      ∀ order : SetOrder, (∀ v r, visited.length ≤ v.length → order.links v r = links v r) →
        spread graph order turns visited frontier remaining = .ok arcs := by
  induction h generalizing visited turns with
  | done =>
    refine ⟨fun _ r => r, fun _ _ => .refl _, fun order _ => ?_⟩
    rcases turns with _ | turns <;> rfl
  | @turn node frontier remaining snapshot more hperm hknows hmore ih =>
    rcases turns with _ | turns
    · rw [List.length_cons] at hturns
      omega
    · have hlength := length_turn graph node frontier hperm
      rw [List.length_cons] at hturns
      obtain ⟨links, hlinks, hspread⟩ := ih (visited ++ [node]) turns (by omega)
      -- The nodes visited by then tell the turns apart.
      refine ⟨fun v r => if v = visited ∧ r = remaining then snapshot else links v r, fun v r => ?_,
        fun order horder => ?_⟩
      · dsimp only
        by_cases hturn : v = visited ∧ r = remaining
        · rw [if_pos hturn, hturn.2]
          exact hperm
        · rw [if_neg hturn]
          exact hlinks v r
      · have hnow : order.links visited remaining = snapshot :=
          (horder visited remaining le_rfl).trans (if_pos ⟨rfl, rfl⟩)
        have hlater := hspread order fun v r hv => by
          rw [List.length_append, List.length_singleton] at hv
          refine (horder v r (by omega)).trans (if_neg ?_)
          rintro ⟨rfl, -⟩
          omega
        rw [spread, hnow]
        refine bind_eq_ok.2 ⟨_, leaving_eq_ok.2 ⟨fun lid hlid => hknows lid (hperm.mem_iff.1 hlid), rfl⟩,
          bind_eq_ok.2 ⟨more, ?_, rfl⟩⟩
        rw [left_eq hperm]
        exact hlater

/-- What may become of a layer does so in some order of the sets. -/
theorem Spreads.exists_order (h : Spreads graph frontier remaining arcs) :
    ∃ order : SetOrder, ∀ upstream, frontier.Perm upstream →
      spread graph order (upstream.length + remaining.length) []
        (order.nodes remaining upstream) remaining = .ok arcs := by
  obtain ⟨links, hlinks, hspread⟩ := h.exists_links [] (frontier.length + remaining.length) le_rfl
  refine ⟨⟨fun _ upstream => if frontier.Perm upstream then frontier else upstream, links,
    fun _ upstream => ?_, hlinks⟩, fun upstream hperm => ?_⟩
  · by_cases hperm : frontier.Perm upstream
    · rw [if_pos hperm]
      exact hperm
    · rw [if_neg hperm]
  · rw [← hperm.length_eq]
    dsimp only
    rw [if_pos hperm]
    exact hspread _ fun _ _ _ => rfl

end Orders

end Dnlab.FlowReconstruct
