import Dnlab.Lib.Except
import Dnlab.Services.Scheduler

/-!
# The links of a plan

What the passes over the links make of them. The `i`-th link between hosts
comes from a link of the topology whose ends are on different hosts, has the
`i`-th VXLAN id of the lab, and has at each end the name that the end would have
on its own, with the number of times the name came before on the host
(`Sorted.of_uniqueOnHosts`).
-/

namespace Dnlab.Scheduler

/-! ## Making the names of the hosts unique -/

section Unique

variable {host : String}

/-- A link with its host-side names replaced. -/
def withIfaces (l : CrossHostLink) (src tgt : String) : CrossHostLink :=
  { l with sourceHostIface := src, targetHostIface := tgt }

/-- The ends on a host before the ends of the `i`-th link. -/
def seats (host : String) (links : List CrossHostLink) (i : ℕ) : ℕ :=
  ((links.take i).map fun l =>
    (if l.sourceHost = host then 1 else 0) + if l.targetHost = host then 1 else 0).sum

theorem length_namesOn (host : String) (links : List CrossHostLink) (i : ℕ) :
    (namesOn host (links.take i)).length = seats host links i := by
  unfold namesOn seats
  rw [List.length_flatMap]
  congr 1
  refine List.map_congr_left fun l _ => ?_
  rw [List.length_append]
  split <;> split <;> rfl

/-- A name handed out, if there is one. -/
def handed (names : List String) (pos : ℕ) (own : String) : String := (names[pos]?).getD own

theorem getElem?_handOut (names : List String) (links : List CrossHostLink) (i : ℕ) :
    (handOut host names links)[i]? = (links[i]?).map fun l => withIfaces l
      (if l.sourceHost = host then handed names (seats host links i) l.sourceHostIface
        else l.sourceHostIface)
      (if l.targetHost = host then
        handed names (seats host links i + if l.sourceHost = host then 1 else 0) l.targetHostIface
        else l.targetHostIface) := by
  induction links generalizing names i with
  | nil => rfl
  | cons l ls ih =>
    cases i with
    | zero =>
      -- The first link takes the first name for its source and the next one for its target.
      rcases names with _ | ⟨n, _ | ⟨m, names⟩⟩ <;> by_cases hs : l.sourceHost = host <;>
        by_cases ht : l.targetHost = host <;>
        simp [handOut, withIfaces, handed, seats, hs, ht]
    | succ i =>
      have hdrop : ∀ (names : List String) (k pos : ℕ) (own : String),
          handed (names.drop k) pos own = handed names (k + pos) own := by
        intro names k pos own
        rw [handed, handed, List.getElem?_drop]
      have hseats : seats host (l :: ls) (i + 1) =
          ((if l.sourceHost = host then 1 else 0) + if l.targetHost = host then 1 else 0) +
            seats host ls i := by
        rw [seats, List.take_succ_cons, List.map_cons, List.sum_cons]
        rfl
      have htail : names.tail = names.drop 1 := List.drop_one.symm
      rw [handOut, List.getElem?_cons_succ, List.getElem?_cons_succ, hseats]
      by_cases hs : l.sourceHost = host <;> by_cases ht : l.targetHost = host <;>
        simp only [hs, ht, if_true, if_false, ih, htail, List.tail_drop, hdrop] <;>
        simp only [Nat.add_assoc, Nat.zero_add]

variable {hosts : List String} {links : List CrossHostLink}

/-- The names on a host before that of the source of the `i`-th link. -/
def beforeSource (links : List CrossHostLink) (i : ℕ) (l : CrossHostLink) : List String :=
  namesOn l.sourceHost (links.take i)

/-- The names on a host before that of the target of the `i`-th link. -/
def beforeTarget (links : List CrossHostLink) (i : ℕ) (l : CrossHostLink) : List String :=
  namesOn l.targetHost (links.take i) ++
    if l.sourceHost = l.targetHost then [l.sourceHostIface] else []

/-- The link `i` with the names that it has been given on the hosts `finished`. -/
def renamed (links : List CrossHostLink) (finished : List String) (i : ℕ) (l : CrossHostLink) :
    CrossHostLink :=
  withIfaces l
    (if l.sourceHost ∈ finished then
      Naming.nthName l.sourceHostIface ((beforeSource links i l).count l.sourceHostIface)
      else l.sourceHostIface)
    (if l.targetHost ∈ finished then
      Naming.nthName l.targetHostIface ((beforeTarget links i l).count l.targetHostIface)
      else l.targetHostIface)

theorem handed_ensureUnique {names before after : List String} {own : String}
    (h : names = before ++ own :: after) (other : String) :
    handed (Naming.ensureUnique names) before.length other =
      Naming.nthName own (before.count own) := by
  rw [handed, Naming.getElem?_ensureUnique, h, List.getElem?_append_right le_rfl, Nat.sub_self,
    List.getElem?_cons_zero, List.take_left]
  rfl

theorem namesOn_split {i : ℕ} {l : CrossHostLink} (hl : links[i]? = some l) (host : String) :
    namesOn host links = namesOn host (links.take i) ++
      (((if l.sourceHost = host then [l.sourceHostIface] else []) ++
        if l.targetHost = host then [l.targetHostIface] else []) ++
          namesOn host (links.drop (i + 1))) := by
  have hsplit : links = links.take i ++ l :: links.drop (i + 1) := by
    obtain ⟨hlt, rfl⟩ := List.getElem?_eq_some_iff.1 hl
    rw [← List.drop_eq_getElem_cons hlt, List.take_append_drop]
  conv_lhs => rw [hsplit]
  rw [namesOn, List.flatMap_append, List.flatMap_cons]
  rfl

/-- The name handed out to the source of the `i`-th link. -/
theorem handed_source {i : ℕ} {l : CrossHostLink} (hl : links[i]? = some l) (other : String) :
    handed (Naming.ensureUnique (namesOn l.sourceHost links)) (seats l.sourceHost links i) other =
      Naming.nthName l.sourceHostIface ((beforeSource links i l).count l.sourceHostIface) := by
  rw [← length_namesOn]
  have hsplit := namesOn_split hl l.sourceHost
  rw [if_pos rfl, List.append_assoc, List.singleton_append] at hsplit
  exact handed_ensureUnique hsplit other

/-- The name handed out to the target of the `i`-th link. -/
theorem handed_target {i : ℕ} {l : CrossHostLink} (hl : links[i]? = some l) (other : String) :
    handed (Naming.ensureUnique (namesOn l.targetHost links))
        (seats l.targetHost links i + if l.sourceHost = l.targetHost then 1 else 0) other =
      Naming.nthName l.targetHostIface ((beforeTarget links i l).count l.targetHostIface) := by
  have hlen : seats l.targetHost links i + (if l.sourceHost = l.targetHost then 1 else 0) =
      (beforeTarget links i l).length := by
    rw [beforeTarget, List.length_append, length_namesOn]
    split <;> rfl
  rw [hlen]
  have hsplit := namesOn_split hl l.targetHost
  rw [if_pos rfl, ← List.append_assoc, ← List.append_assoc, List.append_assoc _ [_],
    List.singleton_append] at hsplit
  exact handed_ensureUnique hsplit other

/-- Giving out the names of one host. -/
theorem handOut_renamed {ls : List CrossHostLink} {finished : List String}
    (h : ∀ i : ℕ, ls[i]? = (links[i]?).map (renamed links finished i)) (i : ℕ) :
    (handOut host (Naming.ensureUnique (namesOn host links)) ls)[i]? =
      (links[i]?).map (renamed links (finished ++ [host]) i) := by
  have hseats : seats host ls i = seats host links i := by
    have htake : ls.take i = (links.take i).zipIdx.map fun p => renamed links finished p.2 p.1 := by
      refine List.ext_getElem? fun j => ?_
      rw [List.getElem?_map, List.getElem?_zipIdx, List.getElem?_take, List.getElem?_take, h j]
      split
      · cases links[j]? <;> simp
      · rfl
    rw [seats, htake, List.map_map, seats]
    conv_rhs => rw [← List.zipIdx_map_fst 0 (links.take i), List.map_map]
    rfl
  rw [getElem?_handOut, h i, hseats]
  cases hl : links[i]? with
  | none => rfl
  | some l =>
    rw [Option.map_some, Option.map_some, Option.map_some, Option.some.injEq]
    have hsrc := handed_source hl
    have htgt := handed_target hl
    simp only [renamed, withIfaces, List.mem_append, List.mem_singleton]
    by_cases hs : l.sourceHost = host
    · subst hs
      by_cases ht : l.targetHost = l.sourceHost
      · rw [ht, if_pos rfl] at htgt
        simp only [ht, if_true, or_true, hsrc, htgt]
      · simp only [ht, if_true, if_false, or_true, or_false, hsrc]
    · by_cases ht : l.targetHost = host
      · subst ht
        simp only [hs, if_true, if_false, or_true, or_false, Nat.add_zero] at htgt ⊢
        rw [htgt]
      · simp only [hs, ht, if_false, or_false]

/-- The names of the links after those of all hosts are made unique. -/
theorem getElem?_uniqueOnHosts (i : ℕ) :
    (uniqueOnHosts hosts links)[i]? = (links[i]?).map (renamed links hosts i) := by
  have key : ∀ (todo finished : List String) (ls : List CrossHostLink),
      (∀ i : ℕ, ls[i]? = (links[i]?).map (renamed links finished i)) → ∀ i : ℕ,
      (todo.foldl (fun ls h => handOut h (Naming.ensureUnique (namesOn h links)) ls) ls)[i]? =
        (links[i]?).map (renamed links (finished ++ todo) i) := by
    intro todo
    induction todo with
    | nil =>
      intro finished ls h i
      rw [List.append_nil]
      exact h i
    | cons host todo ih =>
      intro finished ls h i
      rw [List.foldl_cons, ih (finished ++ [host]) _ (handOut_renamed h), List.append_assoc]
      rfl
  refine key hosts [] links (fun i => ?_) i
  cases links[i]? <;> simp [renamed, withIfaces]

end Unique

/-! ## What the passes make of a link -/

section Passes

variable {topo : DistributedTopology} {plan : SchedulePlan}

/-- The links of a topology sorted by the hosts of their ends: `across` are those between hosts,
    before their names are made unique, the first of them the `i`-th of the lab. -/
structure Sorted (topo : DistributedTopology) (plan : SchedulePlan) (i : ℕ) (links : List Link)
    (within : List Link) (across : List CrossHostLink) : Prop where
  within_mem : ∀ l ∈ within, l ∈ links ∧ plan.hostForVd l.source = plan.hostForVd l.target
  across_at : ∀ j c, across[j]? = some c → ∃ l ∈ links,
    plan.hostForVd l.source ≠ plan.hostForVd l.target ∧ c = crossLink topo (i + j) l
      ((plan.hostForVd l.source).getD "") ((plan.hostForVd l.target).getD "")

section Sorted

variable {i : ℕ} {l : Link} {links within : List Link} {across : List CrossHostLink}

theorem Sorted.skip (h : Sorted topo plan i links within across) :
    Sorted topo plan i (l :: links) within across where
  within_mem l' hl' := ⟨List.mem_cons_of_mem _ (h.within_mem l' hl').1, (h.within_mem l' hl').2⟩
  across_at j c hc := by
    obtain ⟨l', hl', h'⟩ := h.across_at j c hc
    exact ⟨l', List.mem_cons_of_mem _ hl', h'⟩

theorem Sorted.consWithin (h : Sorted topo plan i links within across)
    (hl : plan.hostForVd l.source = plan.hostForVd l.target) :
    Sorted topo plan i (l :: links) (l :: within) across where
  within_mem l' hl' := by
    rcases List.mem_cons.1 hl' with rfl | hl'
    · exact ⟨List.mem_cons_self, hl⟩
    · exact h.skip.within_mem l' hl'
  across_at := h.skip.across_at

theorem Sorted.consAcross (h : Sorted topo plan (i + 1) links within across)
    (hl : plan.hostForVd l.source ≠ plan.hostForVd l.target) :
    Sorted topo plan i (l :: links) within (crossLink topo i l
      ((plan.hostForVd l.source).getD "") ((plan.hostForVd l.target).getD "") :: across) where
  within_mem := h.skip.within_mem
  across_at j c hc := by
    rcases j with _ | j
    · exact ⟨l, List.mem_cons_self, hl, (Option.some.inj hc).symm⟩
    · obtain ⟨l', hl', hne, hc'⟩ := h.across_at j c hc
      exact ⟨l', List.mem_cons_of_mem _ hl', hne, by rw [hc', Nat.add_right_comm, Nat.add_assoc]⟩

theorem sorted_splitAll (i : ℕ) (links : List Link) :
    Sorted topo plan i links (splitAll topo plan i links).1 (splitAll topo plan i links).2 := by
  induction links generalizing i with
  | nil => exact ⟨fun l hl => by simp [splitAll] at hl, fun j c hc => by simp [splitAll] at hc⟩
  | cons l links ih =>
    unfold splitAll
    by_cases h : plan.hostForVd l.source = plan.hostForVd l.target
    · rw [if_pos h]
      exact (ih i).consWithin h
    · rw [if_neg h]
      exact (ih (i + 1)).consAcross h

theorem sorted_splitLinks {allow : Bool}
    (h : splitLinks topo plan allow i links = .ok (within, across)) :
    Sorted topo plan i links within across := by
  induction links generalizing i within across with
  | nil =>
    obtain ⟨rfl, rfl⟩ := Prod.mk.inj (Except.ok.inj h)
    exact ⟨fun l hl => by simp at hl, fun j c hc => by simp at hc⟩
  | cons l links ih =>
    unfold splitLinks at h
    dsimp only at h
    by_cases hnone : (plan.hostForVd l.source).getD "" = "" ∨ (plan.hostForVd l.target).getD "" = ""
    · rw [if_pos hnone] at h
      cases allow with
      | true => exact (ih h).skip
      | false => exact absurd h (by simp)
    · rw [if_neg hnone] at h
      -- Both ends have a host, so their hosts are the same as options as well.
      have hsome : ∀ o : Option String, o.getD "" ≠ "" → o = some (o.getD "") := by
        rintro (_ | _) h
        · exact absurd rfl h
        · rfl
      have hs := hsome _ (not_or.1 hnone).1
      have ht := hsome _ (not_or.1 hnone).2
      by_cases hhost : (plan.hostForVd l.source).getD "" = (plan.hostForVd l.target).getD ""
      · rw [if_pos hhost, ExceptRules.map_eq_ok] at h
        obtain ⟨⟨ls, cs⟩, h, heq⟩ := h
        obtain ⟨rfl, rfl⟩ := Prod.mk.inj heq
        exact (ih h).consWithin (by rw [hs, ht, hhost])
      · rw [if_neg hhost, ExceptRules.map_eq_ok] at h
        obtain ⟨⟨ls, cs⟩, h, heq⟩ := h
        obtain ⟨rfl, rfl⟩ := Prod.mk.inj heq
        exact (ih h).consAcross fun h => hhost (by rw [h])

end Sorted

/-- The attachments to real networks of a topology `nets` once they are placed. -/
def PlacedNet (plan : SchedulePlan) (l l' : RealNetLink) : Prop :=
  l' = { l with
    host := (plan.hostForVd l.node).getD ""
    bridgeIface := Naming.realnetBridgeIface l.node l.iface }

theorem placeRealNets_eq_ok {allow : Bool} {nets nets' : List RealNetLink}
    (h : placeRealNets plan allow nets = .ok nets') :
    List.Forall₂ (fun l l' => ((plan.hostForVd l.node).getD "" ≠ "" ∧ PlacedNet plan l l') ∨
      ((plan.hostForVd l.node).getD "" = "" ∧ allow = true ∧ l' = l)) nets nets' := by
  induction nets generalizing nets' with
  | nil =>
    obtain rfl := Except.ok.inj h
    exact .nil
  | cons l nets ih =>
    unfold placeRealNets at h
    dsimp only at h
    by_cases hnone : (plan.hostForVd l.node).getD "" = ""
    · rw [if_pos hnone] at h
      cases allow with
      | true =>
        rw [if_pos rfl, ExceptRules.map_eq_ok] at h
        obtain ⟨rest, hrest, rfl⟩ := h
        exact .cons (.inr ⟨hnone, rfl, rfl⟩) (ih hrest)
      | false => exact absurd h (by simp)
    · rw [if_neg hnone, ExceptRules.map_eq_ok] at h
      obtain ⟨rest, hrest, rfl⟩ := h
      exact .cons (.inl ⟨hnone, rfl⟩) (ih hrest)

/-- What `classifyLinks` makes of the links. -/
theorem classifyLinks_eq_ok {allow : Bool} {topo' : DistributedTopology} {plan' : SchedulePlan}
    (h : classifyLinks topo plan allow = .ok (topo', plan')) :
    ∃ within across nets, splitLinks topo plan allow 0 topo.links = .ok (within, across) ∧
      placeRealNets plan allow topo.realNetLinks = .ok nets ∧
      topo' = { topo with realNetLinks := nets } ∧
      plan' = { plan with
        localLinks := within
        crossHostLinks := uniqueOnHosts plan.assignments.keys across } := by
  unfold classifyLinks at h
  simp only [ExceptRules.bind_eq_ok, ExceptRules.pure_eq_ok] at h
  obtain ⟨⟨within, across⟩, hsplit, nets, hnets, h⟩ := h
  obtain ⟨rfl, rfl⟩ := Prod.mk.inj h
  exact ⟨within, across, nets, hsplit, hnets, rfl, rfl⟩

/-- The plan of a lab before its links are sorted. -/
def barePlan (topo : DistributedTopology) (assignments : Dict String HostAssignment) :
    SchedulePlan where
  labName := topo.name
  assignments := assignments
  vrfTableId := Ids.vrfTableId topo.name
  mgmtVxlanId := Ids.mgmtVxlanId topo.name

/-- What `computeSchedule` makes of a topology. -/
theorem computeSchedule_eq_ok {vds : Dict String VDResources} {hosts : Dict String HostResources}
    {prefs : Dict String String} {topo' : DistributedTopology} {plan' : SchedulePlan}
    (h : computeSchedule topo vds hosts prefs = .ok (topo', plan')) :
    ∃ placement nets,
      assignAll hosts prefs (initialPlacement hosts) (sortedVds vds) = .ok placement ∧
      placeRealNets (barePlan topo placement.assignments) false topo.realNetLinks = .ok nets ∧
      topo' = { topo with realNetLinks := nets } ∧
      plan' = { barePlan topo placement.assignments with
        localLinks := (splitAll topo (barePlan topo placement.assignments) 0 topo.links).1
        crossHostLinks :=
          let across := (splitAll topo (barePlan topo placement.assignments) 0 topo.links).2
          uniqueOnHosts (hostsOf (barePlan topo placement.assignments) across) across } := by
  unfold computeSchedule at h
  dsimp only at h
  split at h
  · exact absurd h (by simp)
  · simp only [ExceptRules.bind_eq_ok, ExceptRules.pure_eq_ok] at h
    obtain ⟨placement, hplacement, nets, hnets, h⟩ := h
    obtain ⟨rfl, rfl⟩ := Prod.mk.inj h
    exact ⟨placement, nets, hplacement, hnets, rfl, rfl⟩

/-- The `i`-th link between hosts. -/
theorem Sorted.of_uniqueOnHosts {links within : List Link} {across : List CrossHostLink}
    {hosts : List String} (h : Sorted topo plan 0 links within across) {i : ℕ} {c : CrossHostLink}
    (hc : (uniqueOnHosts hosts across)[i]? = some c) :
    ∃ l ∈ links, plan.hostForVd l.source ≠ plan.hostForVd l.target ∧
      across[i]? = some (crossLink topo i l ((plan.hostForVd l.source).getD "")
        ((plan.hostForVd l.target).getD "")) ∧
      c = renamed across hosts i (crossLink topo i l ((plan.hostForVd l.source).getD "")
        ((plan.hostForVd l.target).getD "")) := by
  rw [getElem?_uniqueOnHosts, Option.map_eq_some_iff] at hc
  obtain ⟨c', hc', rfl⟩ := hc
  obtain ⟨l, hl, hne, rfl⟩ := h.across_at i c' hc'
  rw [Nat.zero_add] at hc' ⊢
  exact ⟨l, hl, hne, hc', rfl⟩

end Passes

end Dnlab.Scheduler
