import Dnlab.Services.Scheduler.Soundness
import Mathlib.Data.List.Dedup

/-!
# The schedule is stable

A schedule is found again from its own placements (`computeSchedule_again`):
every device fits on the host that was chosen for it, since before its turn the
same choices have been made. And the second pass over the links, which serves a
lab that runs, makes the same of them as the first (`classifyLinks_iff`).
-/

namespace Dnlab.Scheduler

variable {topo topo' : DistributedTopology} {vds : Dict String VDResources}
  {hosts : Dict String HostResources} {prefs prefs' : Dict String String} {plan : SchedulePlan}

/-! ## The same choices again -/

/-- Choices that are also preferred are made again. -/
theorem greedy_again {p : Placement} {cs : List Choice} (h : Greedy hosts prefs p cs)
    (hprefs : ∀ c ∈ cs, prefs'.get? c.1.name = some c.2) : Greedy hosts prefs' p cs := by
  induction cs generalizing p with
  | nil => trivial
  | cons c cs ih =>
    refine ⟨bestHost_of_sticks ⟨hprefs c List.mem_cons_self, fits_of_bestHost h.1⟩, ?_⟩
    exact ih h.2 fun c' hc' => hprefs c' (List.mem_cons_of_mem _ hc')

/-- Attachments that are placed are placed where they are. -/
theorem placeRealNets_again {nets nets' : List RealNetLink}
    (h : placeRealNets plan false nets = .ok nets') (allow : Bool) :
    placeRealNets plan allow nets = .ok nets' ∧ placeRealNets plan allow nets' = .ok nets' := by
  induction nets generalizing nets' with
  | nil =>
    obtain rfl := Except.ok.inj h
    exact ⟨rfl, rfl⟩
  | cons l nets ih =>
    rw [placeRealNets] at h
    by_cases hnone : (plan.hostForVd l.node).getD "" = ""
    · rw [if_pos hnone] at h
      cases h
    · rw [if_neg hnone, ExceptRules.map_eq_ok] at h
      obtain ⟨rest, hrest, rfl⟩ := h
      obtain ⟨hfirst, hsecond⟩ := ih hrest
      constructor
      · exact (if_neg hnone).trans (congrArg _ hfirst)
      · exact (if_neg hnone).trans (congrArg _ hsecond)

section Congr

variable {t : DistributedTopology} {plan' : SchedulePlan}

/-- Where the links go depends on the name of the lab and on where the devices are. -/
theorem splitAll_congr (hname : t.name = topo.name) (hhost : plan'.hostForVd = plan.hostForVd)
    (i : ℕ) (links : List Link) : splitAll t plan' i links = splitAll topo plan i links := by
  induction links generalizing i with
  | nil => rfl
  | cons l links ih =>
    rw [splitAll, splitAll, hhost]
    dsimp only
    rw [ih, ih, crossLink, crossLink, hname]

theorem splitLinks_congr (hname : t.name = topo.name) (hhost : plan'.hostForVd = plan.hostForVd)
    (allow : Bool) (i : ℕ) (links : List Link) :
    splitLinks t plan' allow i links = splitLinks topo plan allow i links := by
  induction links generalizing i with
  | nil => rfl
  | cons l links ih =>
    rw [splitLinks, splitLinks, hhost]
    dsimp only
    rw [ih, ih, crossLink, crossLink, hname]

theorem placeRealNets_congr (hhost : plan'.hostForVd = plan.hostForVd) (allow : Bool)
    (nets : List RealNetLink) :
    placeRealNets plan' allow nets = placeRealNets plan allow nets := by
  induction nets with
  | nil => rfl
  | cons l nets ih =>
    rw [placeRealNets, placeRealNets, hhost, ih]

end Congr

/-- The plan of an assignment. -/
def planOf (topo : DistributedTopology) (placement : Placement) :
    Except Err (DistributedTopology × SchedulePlan) := do
  let plan := barePlan topo placement.assignments
  let nets ← placeRealNets plan false topo.realNetLinks
  let across := (splitAll topo plan 0 topo.links).2
  pure ({ topo with realNetLinks := nets },
    { plan with
      localLinks := (splitAll topo plan 0 topo.links).1
      crossHostLinks := uniqueOnHosts (hostsOf plan across) across })

/-- A schedule that succeeds is the plan of its assignment. -/
theorem computeSchedule_eq_planOf (h : computeSchedule topo vds hosts prefs = .ok (topo', plan))
    (t : DistributedTopology) (prefs' : Dict String String) :
    computeSchedule t vds hosts prefs' =
      assignAll hosts prefs' (initialPlacement hosts) (sortedVds vds) >>= planOf t := by
  have hfits : ¬((vds.values.map (·.cpu)).sum > (hosts.values.map (·.cpuAvailable)).sum ∨
      (vds.values.map (·.ramMb)).sum > (hosts.values.map (·.ramMbAvailable)).sum) := by
    intro hover
    have herr : ∃ e, computeSchedule topo vds hosts prefs = .error e := ⟨_, if_pos hover⟩
    obtain ⟨e, he⟩ := herr
    rw [he] at h
    cases h
  exact if_neg hfits

/-- A plan is made again of a topology whose attachments it has placed. -/
theorem planOf_again {placement : Placement} (h : planOf topo placement = .ok (topo', plan)) :
    planOf topo' placement = .ok (topo', plan) := by
  simp only [planOf, ExceptRules.bind_eq_ok, ExceptRules.pure_eq_ok] at h ⊢
  obtain ⟨nets, hnets, h⟩ := h
  obtain ⟨rfl, rfl⟩ := Prod.mk.inj h
  have hname : ({ topo with realNetLinks := nets } : DistributedTopology).name = topo.name := rfl
  have hsplit : ∀ q : SchedulePlan, _ := fun q =>
    splitAll_congr hname (rfl : q.hostForVd = q.hostForVd) 0 topo.links
  refine ⟨nets, (placeRealNets_again hnets false).2, ?_⟩
  simp only [hsplit]
  rfl

/-- A schedule is found again from its own placements, of the topology as it was or as it is with
    its attachments placed. -/
theorem computeSchedule_again (topo topo' t : DistributedTopology) (vds : Dict String VDResources)
    (hosts : Dict String HostResources) (prefs prefs' : Dict String String) (plan : SchedulePlan)
    (hk : Keyed vds) (h : computeSchedule topo vds hosts prefs = .ok (topo', plan))
    (hprefs : ∀ n ∈ vds.keys, prefs'.get? n = plan.hostForVd n) (ht : t = topo ∨ t = topo') :
    computeSchedule t vds hosts prefs' = .ok (topo', plan) := by
  obtain ⟨cs, hc⟩ := exists_choices h
  have hfirst : assignAll hosts prefs (initialPlacement hosts) (sortedVds vds) =
      .ok ((initialPlacement hosts).after cs) :=
    assignAll_eq_ok.2 ⟨cs, hc.devices, hc.greedy, rfl⟩
  have hsecond : assignAll hosts prefs' (initialPlacement hosts) (sortedVds vds) =
      .ok ((initialPlacement hosts).after cs) := by
    refine assignAll_eq_ok.2 ⟨cs, hc.devices, greedy_again hc.greedy fun c hcs => ?_, rfl⟩
    rw [hprefs _ (Dict.mem_keys_iff.2 ⟨_, hc.get?_name hk hcs⟩), hc.hostForVd hk hcs]
  have hplan : planOf topo ((initialPlacement hosts).after cs) = .ok (topo', plan) := by
    rw [computeSchedule_eq_planOf h, hfirst] at h
    exact h
  rw [computeSchedule_eq_planOf h, hsecond]
  rcases ht with rfl | rfl
  · exact hplan
  · exact planOf_again hplan

theorem computeSchedule_again_two : ∃ r,
    computeSchedule twoRouters twoDemands twoHosts ∅ = .ok r ∧
    computeSchedule r.1 twoDemands twoHosts
      (.ofList (twoDemands.keys.map fun n => (n, (r.2.hostForVd n).getD ""))) = .ok r := by
  obtain ⟨⟨topo', plan⟩, hr⟩ := exists_twoPlan
  refine ⟨_, hr, computeSchedule_again _ _ _ _ _ _ _ _ keyed_twoDemands hr (fun n hn => ?_)
    (.inr rfl)⟩
  obtain ⟨cs, hc⟩ := exists_choices hr
  obtain ⟨c, hcs, rfl⟩ := hc.exists_of_mem keyed_twoDemands hn
  rw [hc.hostForVd keyed_twoDemands hcs, Dict.get?_ofList_of_nodup]
  · refine List.mem_map.2 ⟨c.1.name, hn, ?_⟩
    rw [hc.hostForVd keyed_twoDemands hcs]
    rfl
  · rw [List.map_map]
    exact twoDemands.nodup_keys'.map fun _ _ h => h

/-! ## The second pass over the links -/

/-- Whether both ends of a link are on a host with a name. -/
def hasHosts (plan : SchedulePlan) (l : Link) : Bool :=
  (plan.hostForVd l.source).getD "" ≠ "" && (plan.hostForVd l.target).getD "" ≠ ""

/-- Where all links have hosts, the passes make the same of them. -/
theorem splitLinks_eq_splitAll {allow : Bool} {i : ℕ} {links : List Link}
    (h : ∀ l ∈ links, hasHosts plan l = true) :
    splitLinks topo plan allow i links = .ok (splitAll topo plan i links) := by
  induction links generalizing i with
  | nil => rfl
  | cons l links ih =>
    have hrest := fun i => ih (i := i) fun l' hl' => h l' (List.mem_cons_of_mem _ hl')
    have hl := h l List.mem_cons_self
    rw [hasHosts, Bool.and_eq_true, decide_eq_true_eq, decide_eq_true_eq] at hl
    obtain ⟨s, hs⟩ : ∃ s, plan.hostForVd l.source = some s := by
      cases hs : plan.hostForVd l.source with
      | none => exact absurd (by rw [hs]; rfl) hl.1
      | some s => exact ⟨s, rfl⟩
    obtain ⟨t, ht⟩ : ∃ t, plan.hostForVd l.target = some t := by
      cases ht : plan.hostForVd l.target with
      | none => exact absurd (by rw [ht]; rfl) hl.2
      | some t => exact ⟨t, rfl⟩
    rw [splitLinks, splitAll]
    dsimp only
    rw [if_neg (not_or.2 hl), hrest, hrest, hs, ht, Option.getD_some, Option.getD_some]
    by_cases heq : s = t
    · rw [if_pos heq, if_pos (congrArg some heq)]
      rfl
    · rw [if_neg heq, if_neg fun h => heq (Option.some.inj h)]
      rfl

/-- The second pass drops the links that lack a host, or fails at one. -/
theorem length_splitLinks {allow : Bool} {i : ℕ} {links within : List Link}
    {across : List CrossHostLink} (h : splitLinks topo plan allow i links = .ok (within, across)) :
    within.length + across.length = (links.filter (hasHosts plan)).length := by
  induction links generalizing i within across with
  | nil =>
    obtain ⟨rfl, rfl⟩ := Prod.mk.inj (Except.ok.inj h)
    rfl
  | cons l links ih =>
    rw [splitLinks] at h
    dsimp only at h
    by_cases hnone : (plan.hostForVd l.source).getD "" = "" ∨ (plan.hostForVd l.target).getD "" = ""
    · rw [if_pos hnone] at h
      rw [List.filter_cons_of_neg (by simpa [hasHosts, imp_iff_not_or] using hnone)]
      cases allow with
      | true => exact ih h
      | false => cases h
    · rw [if_neg hnone] at h
      rw [List.filter_cons_of_pos (by simpa [hasHosts] using hnone), List.length_cons]
      split at h <;> rw [ExceptRules.map_eq_ok] at h <;> obtain ⟨⟨ls, cs⟩, h, heq⟩ := h <;>
        obtain ⟨rfl, rfl⟩ := Prod.mk.inj heq <;> have hlen := ih h <;> simp only [List.length_cons] <;>
        omega

/-- All links are in one of the classes. -/
theorem length_splitAll (i : ℕ) (links : List Link) :
    (splitAll topo plan i links).1.length + (splitAll topo plan i links).2.length =
      links.length := by
  have hacross : (splitAll topo plan i links).2.length =
      (links.filter fun l => !isLocal plan l).length := by
    rw [← map_linkOf_splitAll, List.length_map]
  rw [splitAll_fst, hacross]
  exact (List.length_eq_length_filter_add (isLocal plan)).symm

/-- The second pass makes of the links what a plan has. -/
def Reclassified (t topo' : DistributedTopology) (bare plan : SchedulePlan) (allow : Bool) : Prop :=
  ∃ t' p, classifyLinks t bare allow = .ok (t', p) ∧ p.localLinks = plan.localLinks ∧
    p.crossHostLinks = plan.crossHostLinks ∧ t'.realNetLinks = topo'.realNetLinks

theorem length_uniqueOnHosts (names : List String) (links : List CrossHostLink) :
    (uniqueOnHosts names links).length = links.length := by
  simpa using congrArg List.length
    (map_uniqueOnHosts (f := CrossHostLink.vxlanId) (fun _ _ _ => rfl) names links)

/-- The names are collected for the hosts of the plan, since the ends of its links are on them. -/
theorem hostsOf_eq_keys {links : List Link}
    (h : ∀ l ∈ links, ∃ s t, plan.hostForVd l.source = some s ∧ plan.hostForVd l.target = some t) :
    hostsOf plan (splitAll topo plan 0 links).2 = plan.assignments.keys := by
  have hkey : ∀ {n host}, plan.hostForVd n = some host → host ∈ plan.assignments.keys := by
    intro n host hn
    obtain ⟨a, ha, -⟩ := SchedulePlan.hostForVd_eq_some hn
    exact Dict.mem_keys_iff.2 ⟨a, ha⟩
  rw [hostsOf, List.append_right_eq_self, List.filter_eq_nil_iff]
  intro host hhost
  rw [List.mem_dedup, List.mem_flatMap] at hhost
  obtain ⟨c, hc, hhost⟩ := hhost
  obtain ⟨j, hj⟩ := List.getElem?_of_mem hc
  obtain ⟨l, hl, -, rfl⟩ := (sorted_splitAll 0 links).across_at j c hj
  obtain ⟨s, t, hs, ht⟩ := h l hl
  rw [decide_eq_true_eq, not_not]
  rcases List.mem_pair.1 hhost with rfl | rfl
  · rw [crossLink, hs]
    exact hkey hs
  · rw [crossLink, ht]
    exact hkey ht

/-- The second pass makes of the links what the plan has just if no end of a link is on a host
    whose name is empty, which counts as no host there. -/
theorem classifyLinks_iff (topo topo' t : DistributedTopology) (vds : Dict String VDResources)
    (hosts : Dict String HostResources) (prefs : Dict String String) (plan bare : SchedulePlan)
    (allow : Bool) (hk : Keyed vds)
    (hlinks : ∀ l ∈ topo.links, l.source ∈ vds.keys ∧ l.target ∈ vds.keys)
    (h : computeSchedule topo vds hosts prefs = .ok (topo', plan))
    (hbare : bare.assignments = plan.assignments) (ht : t = topo ∨ t = topo') :
    Reclassified t topo' bare plan allow ↔ ∀ l ∈ topo.links, hasHosts plan l = true := by
  obtain ⟨cs, hc⟩ := exists_choices h
  obtain ⟨placement, nets, -, hnets, htopo', hplan⟩ := computeSchedule_eq_ok h
  -- All passes see the same hosts.
  have hassign : plan.assignments = placement.assignments := by rw [hplan]; rfl
  have hhost : bare.hostForVd = plan.hostForVd := by
    funext n
    rw [SchedulePlan.hostForVd, SchedulePlan.hostForVd, hbare]
  have hhost' : (barePlan topo placement.assignments).hostForVd = plan.hostForVd := by
    funext n
    rw [SchedulePlan.hostForVd, SchedulePlan.hostForVd, hassign, barePlan]
  have hname : t.name = topo.name := by
    rcases ht with rfl | rfl
    · rfl
    · rw [htopo']
  have htlinks : t.links = topo.links := by
    rcases ht with rfl | rfl
    · rfl
    · rw [htopo']
  have hends : ∀ l ∈ topo.links, ∃ s t,
      plan.hostForVd l.source = some s ∧ plan.hostForVd l.target = some t := by
    intro l hl
    obtain ⟨c, hcs, hcn⟩ := hc.exists_of_mem hk (hlinks l hl).1
    obtain ⟨c', hcs', hcn'⟩ := hc.exists_of_mem hk (hlinks l hl).2
    exact ⟨c.2, c'.2, hcn ▸ hc.hostForVd hk hcs, hcn' ▸ hc.hostForVd hk hcs'⟩
  have hsplit := splitAll_congr (rfl : topo.name = topo.name) hhost' 0 topo.links
  have hwithin : plan.localLinks = (splitAll topo plan 0 topo.links).1 := by
    rw [← hsplit, hplan]
  have hacross : plan.crossHostLinks =
      uniqueOnHosts plan.assignments.keys (splitAll topo plan 0 topo.links).2 := by
    have hkeys : hostsOf (barePlan topo placement.assignments)
        (splitAll topo (barePlan topo placement.assignments) 0 topo.links).2 =
          plan.assignments.keys := by
      rw [hostsOf_eq_keys fun l hl => by rw [hhost']; exact hends l hl, hassign]
      rfl
    rw [← hsplit, ← hkeys, hplan]
  have hnets' : placeRealNets bare allow t.realNetLinks = .ok topo'.realNetLinks := by
    rw [placeRealNets_congr (hhost.trans hhost'.symm)]
    have hagain := placeRealNets_again hnets allow
    rcases ht with rfl | rfl
    · rw [htopo']
      exact hagain.1
    · rw [htopo']
      exact hagain.2
  have hclass : ∀ links, splitLinks t bare allow 0 t.links = .ok links →
      ∃ t' p, classifyLinks t bare allow = .ok (t', p) ∧ p.localLinks = links.1 ∧
        p.crossHostLinks = uniqueOnHosts plan.assignments.keys links.2 ∧
        t'.realNetLinks = topo'.realNetLinks := by
    intro links hl
    refine ⟨{ t with realNetLinks := topo'.realNetLinks }, { bare with
      localLinks := links.1
      crossHostLinks := uniqueOnHosts bare.assignments.keys links.2 }, ?_, rfl, by rw [hbare], rfl⟩
    rw [classifyLinks, hl, hnets']
    rfl
  constructor
  · rintro ⟨t', p, hp, hloc, hcross, -⟩
    obtain ⟨within, across, nets', hsl, -, -, rfl⟩ := classifyLinks_eq_ok hp
    rw [splitLinks_congr hname hhost, htlinks] at hsl
    -- No link is dropped by the pass, since the plan has all of them.
    have hlen := length_splitLinks hsl
    have hall : (splitAll topo plan 0 topo.links).1.length +
        (splitAll topo plan 0 topo.links).2.length = topo.links.length := length_splitAll 0 topo.links
    have hcross' := congrArg List.length hcross
    dsimp only at hloc
    rw [hacross] at hcross'
    simp only [length_uniqueOnHosts] at hcross'
    rw [hloc, hcross', hwithin, hall] at hlen
    exact List.length_filter_eq_length_iff.1 hlen.symm
  · intro hall
    have hsl : splitLinks topo plan allow 0 topo.links = .ok (splitAll topo plan 0 topo.links) :=
      splitLinks_eq_splitAll hall
    rw [← splitLinks_congr hname hhost, ← htlinks] at hsl
    obtain ⟨t', p, hp, hloc, hcross, hn⟩ := hclass _ hsl
    exact ⟨t', p, hp, by rw [hloc, hwithin, htlinks], by rw [hcross, hacross, htlinks], hn⟩

theorem classifyLinks_iff_two : ∃ topo' plan,
    computeSchedule twoRouters twoDemands twoHosts ∅ = .ok (topo', plan) ∧
      (∀ l ∈ twoRouters.links, hasHosts plan l = true) ∧
      Reclassified topo' topo' (barePlan topo' plan.assignments) plan true := by
  obtain ⟨⟨topo', plan⟩, hr⟩ := exists_twoPlan
  have hhosts : ∀ l ∈ twoRouters.links, hasHosts plan l = true := by
    have hok : ((computeSchedule twoRouters twoDemands twoHosts ∅).toOption.map fun r =>
        twoRouters.links.all (hasHosts r.2)) = some true := by decide +kernel
    rw [hr] at hok
    exact List.all_eq_true.1 (Option.some.inj hok)
  exact ⟨topo', plan, hr, hhosts,
    (classifyLinks_iff twoRouters topo' topo' twoDemands twoHosts ∅ plan
      (barePlan topo' plan.assignments) true keyed_twoDemands links_twoRouters hr rfl (.inr rfl)).2 hhosts⟩

/-- A worker with the empty name, and the master. -/
def unnamedHosts : Dict String HostResources :=
  .ofList [("master", ⟨"master", "10.0.0.1", 8, 16384, true⟩), ("", ⟨"", "10.0.0.2", 1, 512, false⟩)]

/-- The link of two scheduled devices, one of them on the worker without a name, is lost. -/
theorem not_reclassified_unnamed : ∃ topo' plan,
    computeSchedule twoRouters twoDemands unnamedHosts ∅ = .ok (topo', plan) ∧
      ∀ allow, ¬Reclassified topo' topo' (barePlan topo' plan.assignments) plan allow := by
  have hlost : ∀ allow, ((computeSchedule twoRouters twoDemands unnamedHosts ∅).toOption.map
      fun r => (r.2.crossHostLinks.length, (classifyLinks r.1
        (barePlan r.1 r.2.assignments) allow).toOption.map (·.2.crossHostLinks.length))) =
          some (1, if allow then some 0 else none) := by decide +kernel
  have hr : (computeSchedule twoRouters twoDemands unnamedHosts ∅).isOk = true := by decide +kernel
  cases h : computeSchedule twoRouters twoDemands unnamedHosts ∅ with
  | error e =>
    rw [h] at hr
    cases hr
  | ok r =>
    refine ⟨r.1, r.2, rfl, ?_⟩
    rintro allow ⟨t', p, hp, -, hcross, -⟩
    have hlen := hlost allow
    rw [h] at hlen
    obtain ⟨hone, hnone⟩ := Prod.mk.inj (Option.some.inj hlen)
    rw [hp] at hnone
    cases allow with
    | false => cases hnone
    | true =>
      have hzero : p.crossHostLinks.length = 0 := Option.some.inj hnone
      rw [hcross, hone] at hzero
      cases hzero

end Dnlab.Scheduler
