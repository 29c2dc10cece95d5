import Mathlib.Data.List.Nodup
import Mathlib.Data.List.Perm.Subperm
import Mathlib.Logic.Relation

/-!
# Traversals of graphs

A graph is given by the edges at each node, each with the node at its other end.
A traversal takes nodes off a queue; of every edge at a node it lists the edge
and queues the other node, unless it has seen them. It ends within as many turns
as there are nodes (`exists_eq_loop`), and it lists the edges at the nodes that
can be reached, each once (`mem_found_iff`).
-/

namespace Traversal

variable {ν α : Type} [DecidableEq ν] [DecidableEq α]

/-- What is known in the course of a traversal. -/
structure Visit (ν α : Type) where
  queue : List ν
  seen : List ν
  found : List α

/-- A list with one more element, unless that is there. -/
def add {β : Type} [DecidableEq β] (l : List β) (b : β) : List β := if b ∈ l then l else l ++ [b]

/-- An edge, and the node at its other end. -/
def look (v : Visit ν α) (e : α × ν) : Visit ν α where
  queue := if e.2 ∈ v.seen then v.queue else v.queue ++ [e.2]
  seen := add v.seen e.2
  found := add v.found e.1

/-- The loop, for at most `turns` turns: what is found when the queue is empty. -/
def loop (adj : ν → List (α × ν)) : (turns : ℕ) → Visit ν α → Option (List α)
  | _, ⟨[], _, found⟩ => some found
  | 0, ⟨_ :: _, _, _⟩ => none
  | turns + 1, ⟨node :: queue, seen, found⟩ =>
    loop adj turns ((adj node).foldl look ⟨queue, seen, found⟩)

/-- A traversal from a node. -/
def traverse (adj : ν → List (α × ν)) (turns : ℕ) (source : ν) : Option (List α) :=
  loop adj turns ⟨[source], [source], []⟩

/-- A node is at the other end of an edge. -/
def Step (adj : ν → List (α × ν)) (a b : ν) : Prop := ∃ e ∈ adj a, e.2 = b

/-- A node can be reached. -/
abbrev Reachable (adj : ν → List (α × ν)) : ν → ν → Prop := Relation.ReflTransGen (Step adj)

/-! ## One node -/

/-- What the edges at a node change: the nodes and edges that are new are added. -/
structure Looked (es : List (α × ν)) (v v' : Visit ν α) : Prop where
  nodes : ∃ new, v'.queue = v.queue ++ new ∧ v'.seen = v.seen ++ new ∧ ∀ n ∈ new, ∃ e ∈ es, e.2 = n
  edges : ∃ new, v'.found = v.found ++ new ∧ ∀ a ∈ new, ∃ e ∈ es, e.1 = a
  all : ∀ e ∈ es, e.2 ∈ v'.seen ∧ e.1 ∈ v'.found
  nodup_seen : v.seen.Nodup → v'.seen.Nodup
  nodup_found : v.found.Nodup → v'.found.Nodup

theorem mem_add {β : Type} [DecidableEq β] (l : List β) (b : β) : b ∈ add l b := by
  unfold add
  split
  · assumption
  · exact List.mem_append_right _ List.mem_cons_self

theorem nodup_add {β : Type} [DecidableEq β] {l : List β} (h : l.Nodup) (b : β) : (add l b).Nodup := by
  unfold add
  split
  · exact h
  · exact List.nodup_append.2 ⟨h, List.nodup_singleton b, fun x hx y hy hxy =>
      ‹b ∉ l› (List.mem_singleton.1 hy ▸ hxy ▸ hx)⟩

theorem exists_add {β : Type} [DecidableEq β] (l : List β) (b : β) :
    ∃ new, add l b = l ++ new ∧ ∀ x ∈ new, x = b := by
  unfold add
  split
  · exact ⟨[], (List.append_nil l).symm, List.forall_mem_nil _⟩
  · exact ⟨[b], rfl, fun x hx => List.mem_singleton.1 hx⟩

theorem looked_foldl (es : List (α × ν)) (v : Visit ν α) : Looked es v (es.foldl look v) := by
  induction es generalizing v with
  | nil => exact ⟨⟨[], (List.append_nil _).symm, (List.append_nil _).symm, List.forall_mem_nil _⟩,
      ⟨[], (List.append_nil _).symm, List.forall_mem_nil _⟩, List.forall_mem_nil _, id, id⟩
  | cons e es ih =>
    obtain ⟨⟨new, hqueue, hseen, hnew⟩, ⟨newFound, hfound, hnewFound⟩, hall, hns, hnf⟩ := ih (look v e)
    rw [List.foldl_cons]
    have hnode : ∃ first, (look v e).queue = v.queue ++ first ∧ (look v e).seen = v.seen ++ first ∧
        ∀ n ∈ first, n = e.2 := by
      unfold look add
      split
      · exact ⟨[], (List.append_nil _).symm, (List.append_nil _).symm, List.forall_mem_nil _⟩
      · exact ⟨[e.2], rfl, rfl, fun n hn => List.mem_singleton.1 hn⟩
    obtain ⟨first, hq, hs, hfirst⟩ := hnode
    obtain ⟨firstFound, hf, hfirstFound⟩ := exists_add v.found e.1
    refine ⟨⟨first ++ new, ?_, ?_, fun n hn => ?_⟩, ⟨firstFound ++ newFound, ?_, fun a ha => ?_⟩,
      List.forall_mem_cons.2 ⟨⟨?_, ?_⟩, hall⟩, fun h => hns (nodup_add h e.2),
      fun h => hnf (nodup_add h e.1)⟩
    · rw [hqueue, hq, List.append_assoc]
    · rw [hseen, hs, List.append_assoc]
    · rcases List.mem_append.1 hn with hn | hn
      · exact ⟨e, List.mem_cons_self, (hfirst n hn).symm⟩
      · obtain ⟨e', he', h⟩ := hnew n hn
        exact ⟨e', List.mem_cons_of_mem _ he', h⟩
    · rw [hfound, ← List.append_assoc, ← hf]
      rfl
    · rcases List.mem_append.1 ha with ha | ha
      · exact ⟨e, List.mem_cons_self, (hfirstFound a ha).symm⟩
      · obtain ⟨e', he', h⟩ := hnewFound a ha
        exact ⟨e', List.mem_cons_of_mem _ he', h⟩
    · rw [hseen]
      exact List.mem_append_left _ (mem_add _ _)
    · rw [hfound]
      exact List.mem_append_left _ (mem_add _ _)

/-! ## Runs -/

section Runs

variable (adj : ν → List (α × ν)) (source : ν)

/-- The nodes that were seen are those that are done and those in the queue. What was seen and found
    can be reached, and all that is at a node that is done was seen and found. -/
structure Sound (v : Visit ν α) : Prop where
  queued : ∃ done, v.seen = done ++ v.queue ∧
    ∀ n ∈ done, ∀ e ∈ adj n, e.2 ∈ v.seen ∧ e.1 ∈ v.found
  start : source ∈ v.seen
  reached : ∀ n ∈ v.seen, Reachable adj source n
  found : ∀ a ∈ v.found, ∃ n, Reachable adj source n ∧ ∃ e ∈ adj n, e.1 = a
  nodup_seen : v.seen.Nodup
  nodup_found : v.found.Nodup

variable {adj source}

omit [DecidableEq ν] [DecidableEq α] in
theorem Sound.init : Sound adj source ⟨[source], [source], []⟩ where
  queued := ⟨[], rfl, List.forall_mem_nil _⟩
  start := List.mem_singleton_self source
  reached n hn := by
    rw [List.mem_singleton.1 hn]
  found := List.forall_mem_nil _
  nodup_seen := List.nodup_singleton source
  nodup_found := List.nodup_nil

/-- A turn of the loop. -/
theorem Sound.turn {node : ν} {queue seen : List ν} {found : List α}
    (h : Sound adj source ⟨node :: queue, seen, found⟩) :
    Sound adj source ((adj node).foldl look ⟨queue, seen, found⟩) := by
  obtain ⟨done, hdone, hclosed⟩ := h.queued
  obtain ⟨⟨new, hqueue, hseen, hnew⟩, ⟨newFound, hfound, hnewFound⟩, hall, hns, hnf⟩ :=
    looked_foldl (adj node) ⟨queue, seen, found⟩
  have hnode : Reachable adj source node :=
    h.reached node (hdone ▸ List.mem_append_right _ List.mem_cons_self)
  refine ⟨⟨done ++ [node], ?_, fun n hn e he => ?_⟩, ?_, fun n hn => ?_, fun a ha => ?_,
    hns h.nodup_seen, hnf h.nodup_found⟩
  · have hdone' : seen = done ++ node :: queue := hdone
    rw [hseen, hqueue, hdone']
    simp
  · rcases List.mem_append.1 hn with hn | hn
    · obtain ⟨hs, hf⟩ := hclosed n hn e he
      rw [hseen, hfound]
      exact ⟨List.mem_append_left _ hs, List.mem_append_left _ hf⟩
    · rw [List.mem_singleton.1 hn] at he
      exact hall e he
  · rw [hseen]
    exact List.mem_append_left _ h.start
  · rw [hseen, List.mem_append] at hn
    rcases hn with hn | hn
    · exact h.reached n hn
    · obtain ⟨e, he, rfl⟩ := hnew n hn
      exact hnode.tail ⟨e, he, rfl⟩
  · rw [hfound, List.mem_append] at ha
    rcases ha with ha | ha
    · exact h.found a ha
    · exact ⟨node, hnode, hnewFound a ha⟩

omit [DecidableEq ν] [DecidableEq α] in
/-- When the queue is empty, the edges at the nodes that can be reached are found. -/
theorem Sound.finish {seen : List ν} {found : List α} (h : Sound adj source ⟨[], seen, found⟩) :
    found.Nodup ∧ ∀ a, a ∈ found ↔ ∃ n, Reachable adj source n ∧ ∃ e ∈ adj n, e.1 = a := by
  obtain ⟨done, hdone, hclosed⟩ := h.queued
  have hdone' : seen = done := hdone.trans (List.append_nil done)
  have hseen : ∀ n, Reachable adj source n → n ∈ seen := by
    intro n hn
    induction hn with
    | refl => exact h.start
    | tail _ hstep ih =>
      obtain ⟨e, he, rfl⟩ := hstep
      exact (hclosed _ (hdone' ▸ ih) e he).1
  refine ⟨h.nodup_found, fun a => ⟨h.found a, ?_⟩⟩
  rintro ⟨n, hn, e, he, rfl⟩
  exact (hclosed n (hdone' ▸ hseen n hn) e he).2

/-- The loop ends with the edges at the nodes that can be reached. -/
theorem Sound.loop {turns : ℕ} {v : Visit ν α} {found : List α} (h : Sound adj source v)
    (hloop : loop adj turns v = some found) : found.Nodup ∧
      ∀ a, a ∈ found ↔ ∃ n, Reachable adj source n ∧ ∃ e ∈ adj n, e.1 = a := by
  induction turns generalizing v with
  | zero =>
    obtain ⟨_ | ⟨node, queue⟩, seen, listed⟩ := v
    · obtain rfl : listed = found := Option.some.inj hloop
      exact h.finish
    · cases hloop
  | succ turns ih =>
    obtain ⟨_ | ⟨node, queue⟩, seen, listed⟩ := v
    · obtain rfl : listed = found := Option.some.inj hloop
      exact h.finish
    · exact ih h.turn hloop

/-- What a traversal finds: the edges at the nodes that can be reached, each once. -/
theorem mem_traverse {turns : ℕ} {found : List α} (h : traverse adj turns source = some found) :
    found.Nodup ∧ ∀ a, a ∈ found ↔ ∃ n, Reachable adj source n ∧ ∃ e ∈ adj n, e.1 = a :=
  Sound.init.loop h

/-! ## Termination -/

/-- A turn takes a node off the queue and queues those that it sees for the first time, so the nodes
    of the graph that are not yet seen and those in the queue get fewer. -/
theorem exists_loop {nodes : List ν} (hadj : ∀ n ∈ nodes, ∀ e ∈ adj n, e.2 ∈ nodes) {turns : ℕ}
    {v : Visit ν α} (hseen : ∀ n ∈ v.seen, n ∈ nodes) (hnodup : v.seen.Nodup)
    (hqueue : ∀ n ∈ v.queue, n ∈ v.seen)
    (hturns : nodes.length + v.queue.length ≤ turns + v.seen.length) :
    ∃ found, Traversal.loop adj turns v = some found := by
  induction turns generalizing v with
  | zero =>
    obtain ⟨_ | ⟨node, queue⟩, seen, listed⟩ := v
    · exact ⟨listed, rfl⟩
    · have hle : seen.length ≤ nodes.length := (hnodup.subperm hseen).length_le
      simp only [List.length_cons] at hturns
      omega
  | succ turns ih =>
    obtain ⟨_ | ⟨node, queue⟩, seen, listed⟩ := v
    · exact ⟨listed, rfl⟩
    · obtain ⟨⟨new, hq, hs, hnew⟩, _, _, hns, _⟩ :=
        looked_foldl (adj node) ⟨queue, seen, listed⟩
      have hnode : node ∈ nodes := hseen node (hqueue node List.mem_cons_self)
      apply ih
      · intro n hn
        rw [hs, List.mem_append] at hn
        rcases hn with hn | hn
        · exact hseen n hn
        · obtain ⟨e, he, rfl⟩ := hnew n hn
          exact hadj node hnode e he
      · exact hns hnodup
      · intro n hn
        rw [hq, List.mem_append] at hn
        rw [hs, List.mem_append]
        exact hn.imp_left fun hn => hqueue n (List.mem_cons_of_mem _ hn)
      · simp only [hq, hs, List.length_append, List.length_cons] at hturns ⊢
        omega

/-- More turns change nothing of a loop that has ended. -/
theorem loop_mono {turns more : ℕ} (hle : turns ≤ more) {v : Visit ν α} {found : List α}
    (h : Traversal.loop adj turns v = some found) : Traversal.loop adj more v = some found := by
  induction turns generalizing more v with
  | zero =>
    obtain ⟨_ | ⟨node, queue⟩, seen, listed⟩ := v
    · cases more <;> exact h
    · cases h
  | succ turns ih =>
    obtain ⟨_ | ⟨node, queue⟩, seen, listed⟩ := v
    · cases more <;> exact h
    · obtain ⟨more, rfl⟩ : ∃ n, more = n + 1 := ⟨more - 1, by omega⟩
      exact ih (Nat.le_of_succ_le_succ hle) h

/-- A traversal from a node of a graph ends within as many turns as the graph has nodes. -/
theorem exists_traverse {nodes : List ν} (hadj : ∀ n ∈ nodes, ∀ e ∈ adj n, e.2 ∈ nodes)
    (hsource : source ∈ nodes) :
    ∃ found, ∀ turns, nodes.length ≤ turns → traverse adj turns source = some found := by
  obtain ⟨found, h⟩ := exists_loop (v := ⟨[source], [source], ([] : List α)⟩) hadj
    (fun _ hn => List.mem_singleton.1 hn ▸ hsource) (List.nodup_singleton source)
    (fun _ hn => hn) (Nat.le_refl _)
  exact ⟨found, fun turns hturns => loop_mono hturns h⟩

end Runs

end Traversal
