import Dnlab.Services.Scheduler.Links

/-!
# The assignment of devices to hosts

A successful assignment is a list of choices, one for each device in the order
of their weight, in which every device goes to the host that is best when its
turn comes (`Greedy`). What the placement has for a host, and what it leaves
there, are sums over the devices that the choices put on it.
-/

namespace Dnlab

/-- What the devices `vds` need, by the resources they were placed with. -/
def needed (placed : Dict String VDResources) (vds : List String) : ResourcesUsed where
  cpu := (vds.map fun n => ((placed.get? n).map (·.cpu)).getD 0).sum
  ramMb := (vds.map fun n => ((placed.get? n).map (·.ramMb)).getD 0).sum

section Needed

variable {placed : Dict String VDResources} {vds vds' : List String}

theorem needed_perm (h : vds.Perm vds') : needed placed vds = needed placed vds' := by
  rw [needed, needed, (h.map _).sum_eq, (h.map _).sum_eq]

theorem needed_congr {placed' : Dict String VDResources}
    (h : ∀ n ∈ vds, placed'.get? n = placed.get? n) : needed placed' vds = needed placed vds := by
  have hmap : ∀ f : VDResources → ℕ, vds.map (fun n => ((placed'.get? n).map f).getD 0) =
      vds.map fun n => ((placed.get? n).map f).getD 0 := fun f =>
    List.map_congr_left fun n hn => by rw [h n hn]
  rw [needed, needed, hmap, hmap]

/-- What is needed with one more device. -/
theorem needed_append {node : String} {r : VDResources} (h : placed.get? node = some r) :
    needed placed (vds ++ [node]) =
      ⟨(needed placed vds).cpu + r.cpu, (needed placed vds).ramMb + r.ramMb⟩ := by
  simp [needed, h]

/-- What devices need that are recorded under their names. -/
theorem needed_map_name {devices : List VDResources}
    (h : ∀ r ∈ devices, placed.get? r.name = some r) :
    needed placed (devices.map (·.name)) =
      ⟨(devices.map (·.cpu)).sum, (devices.map (·.ramMb)).sum⟩ := by
  have hmap : ∀ f : VDResources → ℕ,
      (devices.map (·.name)).map (fun n => ((placed.get? n).map f).getD 0) = devices.map f := by
    intro f
    rw [List.map_map]
    exact List.map_congr_left fun r hr => by simp [h r hr]
  rw [needed, hmap, hmap]

end Needed

namespace Scheduler

variable {hosts : Dict String HostResources} {prefs : Dict String String}

/-! ## Choices -/

/-- A device and the host that it is put on. -/
abbrev Choice := VDResources × String

/-- The devices put on hosts one after the other. -/
def Placement.after (p : Placement) (cs : List Choice) : Placement :=
  cs.foldl (fun p c => p.assign c.1 c.2) p

/-- Every device goes to the host that is best when its turn comes. -/
def Greedy (hosts : Dict String HostResources) (prefs : Dict String String) :
    Placement → List Choice → Prop
  | _, [] => True
  | p, c :: cs => bestHost hosts prefs p c.1 = some c.2 ∧ Greedy hosts prefs (p.assign c.1 c.2) cs

theorem assignAll_eq_ok {p p' : Placement} {vds : List VDResources} :
    assignAll hosts prefs p vds = .ok p' ↔
      ∃ cs, cs.map Prod.fst = vds ∧ Greedy hosts prefs p cs ∧ p' = p.after cs := by
  induction vds generalizing p with
  | nil =>
    constructor
    · intro h
      exact ⟨[], rfl, trivial, (Except.ok.inj h).symm⟩
    · rintro ⟨cs, hcs, -, rfl⟩
      rw [List.map_eq_nil_iff.1 hcs]
      rfl
  | cons vd vds ih =>
    rw [assignAll]
    cases hb : bestHost hosts prefs p vd with
    | none =>
      refine ⟨fun h => (by cases h), ?_⟩
      rintro ⟨_ | ⟨c, cs⟩, hcs, hg, -⟩
      · cases hcs
      · obtain ⟨rfl, -⟩ := List.cons.inj hcs
        exact absurd (hb.symm.trans hg.1) (by simp)
    | some host =>
      dsimp only
      rw [ih]
      constructor
      · rintro ⟨cs, rfl, hg, rfl⟩
        exact ⟨(vd, host) :: cs, rfl, ⟨hb, hg⟩, rfl⟩
      · rintro ⟨_ | ⟨⟨vd', host'⟩, cs⟩, hcs, hg, rfl⟩
        · cases hcs
        · obtain ⟨rfl, rfl⟩ := List.cons.inj hcs
          obtain rfl := Option.some.inj (hb.symm.trans hg.1)
          exact ⟨cs, rfl, hg.2, rfl⟩

theorem greedy_append {p : Placement} {before after : List Choice} :
    Greedy hosts prefs p (before ++ after) ↔
      Greedy hosts prefs p before ∧ Greedy hosts prefs (p.after before) after := by
  induction before generalizing p with
  | nil => simp [Greedy, Placement.after]
  | cons c before ih =>
    rw [List.cons_append, Greedy, Greedy, ih, and_assoc]
    rfl

/-! ## The best host -/

section Best

variable {p : Placement} {vd : VDResources} {host : String}

theorem bestOf_mem {candidates : List String} (h : bestOf p candidates = some host) :
    host ∈ candidates := by
  rcases candidates with _ | ⟨h₀, candidates⟩
  · cases h
  · rw [bestOf, Option.some.injEq] at h
    have key : ∀ (l : List String) (best : String),
        l.foldl (fun best h => if better p h best then h else best) best ∈ best :: l := by
      intro l
      induction l with
      | nil => exact fun best => List.mem_cons_self
      | cons h' l ih =>
        intro best
        rw [List.foldl_cons]
        rcases List.mem_cons.1 (ih (if better p h' best then h' else best)) with hm | hm
        · rw [hm]
          split <;> simp
        · exact List.mem_cons_of_mem _ (List.mem_cons_of_mem _ hm)
    exact h ▸ key candidates h₀

theorem bestOf_eq_none {candidates : List String} : bestOf p candidates = none ↔ candidates = [] := by
  cases candidates <;> simp [bestOf]

/-- The hosts with or without the role of the master that a device fits on. -/
def candidates (hosts : Dict String HostResources) (p : Placement) (vd : VDResources)
    (master : Bool) : List String :=
  (hosts.items.filter fun (h, r) => r.isMaster == master && canFit p vd h).map Prod.fst

theorem mem_candidates {master : Bool} : host ∈ candidates hosts p vd master ↔
    ∃ r, hosts.get? host = some r ∧ r.isMaster = master ∧ canFit p vd host := by
  simp [candidates, Dict.get?_eq_some_iff, and_assoc]

/-- Whether a device is to stay on the host it prefers. -/
def Sticks (hosts : Dict String HostResources) (prefs : Dict String String) (p : Placement)
    (vd : VDResources) (host : String) : Prop :=
  prefs.get? vd.name = some host ∧ host ∈ hosts.keys ∧ canFit p vd host

theorem bestHost_of_sticks (h : Sticks hosts prefs p vd host) :
    bestHost hosts prefs p vd = some host := by
  obtain ⟨hpref, hkey, hfit⟩ := h
  rw [bestHost, hpref]
  exact if_pos (by rw [Dict.contains_iff.2 hkey, hfit]; rfl)

/-- Without a preference that it can keep, a device goes to the best worker, or else to the best
    master. -/
theorem bestHost_of_not_sticks (h : ∀ host, ¬Sticks hosts prefs p vd host) :
    bestHost hosts prefs p vd =
      (bestOf p (candidates hosts p vd false)).or (bestOf p (candidates hosts p vd true)) := by
  unfold bestHost
  dsimp only
  cases hpref : prefs.get? vd.name with
  | none => rfl
  | some host =>
    refine if_neg fun hc => h host ⟨hpref, ?_⟩
    rw [Bool.and_eq_true] at hc
    exact ⟨Dict.contains_iff.1 hc.1, hc.2⟩

/-- A device goes to a host that it fits on. -/
theorem fits_of_bestHost (h : bestHost hosts prefs p vd = some host) :
    host ∈ hosts.keys ∧ canFit p vd host := by
  by_cases hs : ∃ host, Sticks hosts prefs p vd host
  · obtain ⟨host', hs⟩ := hs
    rw [bestHost_of_sticks hs, Option.some.injEq] at h
    exact h ▸ hs.2
  · rw [bestHost_of_not_sticks (not_exists.1 hs), Option.or_eq_some_iff] at h
    have hmem : ∃ master, host ∈ candidates hosts p vd master := by
      rcases h with h | ⟨-, h⟩
      · exact ⟨false, bestOf_mem h⟩
      · exact ⟨true, bestOf_mem h⟩
    obtain ⟨master, hmem⟩ := hmem
    obtain ⟨r, hr, -, hfit⟩ := mem_candidates.1 hmem
    exact ⟨Dict.mem_keys_iff.2 ⟨r, hr⟩, hfit⟩

/-- There is a host for a device as long as it fits on one. -/
theorem bestHost_eq_none :
    bestHost hosts prefs p vd = none ↔ ∀ host ∈ hosts.keys, ¬canFit p vd host := by
  constructor
  · intro h host hkey hfit
    by_cases hs : ∃ host, Sticks hosts prefs p vd host
    · obtain ⟨host', hs⟩ := hs
      rw [bestHost_of_sticks hs] at h
      cases h
    · rw [bestHost_of_not_sticks (not_exists.1 hs), Option.or_eq_none_iff, bestOf_eq_none,
        bestOf_eq_none] at h
      obtain ⟨r, hr⟩ := Dict.mem_keys_iff.1 hkey
      have hmem : host ∈ candidates hosts p vd r.isMaster := mem_candidates.2 ⟨r, hr, rfl, hfit⟩
      cases hm : r.isMaster <;> rw [hm] at hmem
      · rw [h.1] at hmem
        exact absurd hmem (by simp)
      · rw [h.2] at hmem
        exact absurd hmem (by simp)
  · intro h
    cases hb : bestHost hosts prefs p vd with
    | none => rfl
    | some host =>
      obtain ⟨hkey, hfit⟩ := fits_of_bestHost hb
      exact absurd hfit (h host hkey)

/-- The master is the last resort. -/
theorem noWorker_of_bestHost (h : bestHost hosts prefs p vd = some host)
    (hs : ¬Sticks hosts prefs p vd host) {r : HostResources} (hr : hosts.get? host = some r)
    (hmaster : r.isMaster = true) {w : String} {s : HostResources}
    (hw : hosts.get? w = some s) (hworker : s.isMaster = false) : ¬canFit p vd w := by
  intro hfit
  have hnone : ∀ host', ¬Sticks hosts prefs p vd host' := by
    intro host' hs'
    rw [bestHost_of_sticks hs', Option.some.injEq] at h
    exact hs (h ▸ hs')
  rw [bestHost_of_not_sticks hnone, Option.or_eq_some_iff, bestOf_eq_none] at h
  rcases h with h | ⟨h, -⟩
  · obtain ⟨r', hr', hworker', -⟩ := mem_candidates.1 (bestOf_mem h)
    obtain rfl := Option.some.inj (hr.symm.trans hr')
    exact absurd (hmaster.symm.trans hworker') (by decide)
  · have hmem : w ∈ candidates hosts p vd false := mem_candidates.2 ⟨s, hw, hworker, hfit⟩
    rw [h] at hmem
    exact absurd hmem (by simp)

end Best

/-! ## What is on a host -/

/-- The devices that the choices put on a host. -/
def on (host : String) (cs : List Choice) : List VDResources :=
  (cs.filter fun c => c.2 = host).map Prod.fst

section On

variable {host : String} {cs : List Choice} {p : Placement}

theorem mem_on {vd : VDResources} : vd ∈ on host cs ↔ (vd, host) ∈ cs := by
  simp [on]

theorem on_cons (c : Choice) :
    on host (c :: cs) = if c.2 = host then c.1 :: on host cs else on host cs := by
  rw [on, List.filter_cons]
  by_cases h : c.2 = host <;> simp [h, on]

/-- What the placement has for a host after the choices. -/
theorem get?_after : (p.after cs).assignments.get? host =
    (p.assignments.get? host).map fun a =>
      { a with
        vdNames := a.vdNames ++ (on host cs).map (·.name)
        cpuUsed := a.cpuUsed + ((on host cs).map (·.cpu)).sum
        ramMbUsed := a.ramMbUsed + ((on host cs).map (·.ramMb)).sum } := by
  induction cs generalizing p with
  | nil => simp [Placement.after, on]
  | cons c cs ih =>
    show ((p.assign c.1 c.2).after cs).assignments.get? host = _
    rw [ih, on_cons, Placement.assign, Dict.get?_modify]
    by_cases h : c.2 = host
    · subst h
      rw [if_pos rfl, if_pos rfl, Option.map_map]
      simp [Function.comp_def, HostAssignment.add, Nat.add_assoc]
    · rw [if_neg (Ne.symm h), if_neg h]

/-- What is left on a host after the choices. -/
theorem remaining_after (h : Greedy hosts prefs p cs) :
    ((p.after cs).remainingCpu.getD host 0 + ((on host cs).map (·.cpu)).sum =
        p.remainingCpu.getD host 0) ∧
      (p.after cs).remainingRam.getD host 0 + ((on host cs).map (·.ramMb)).sum =
        p.remainingRam.getD host 0 := by
  induction cs generalizing p with
  | nil => simp [Placement.after, on]
  | cons c cs ih =>
    obtain ⟨hbest, hrest⟩ := h
    obtain ⟨hcpu, hram⟩ := ih hrest
    have hfit := (fits_of_bestHost hbest).2
    rw [canFit, Bool.and_eq_true, decide_eq_true_eq, decide_eq_true_eq] at hfit
    have hget : ∀ (d : Dict String ℕ) (k : ℕ), (d.modify c.2 (· - k)).getD host 0 =
        if c.2 = host then d.getD host 0 - k else d.getD host 0 := by
      intro d k
      rw [Dict.getD, Dict.get?_modify]
      by_cases heq : c.2 = host
      · rw [if_pos heq.symm, if_pos heq, Dict.getD]
        cases d.get? host <;> simp
      · rw [if_neg (Ne.symm heq), if_neg heq, Dict.getD]
    simp only [Placement.assign, hget] at hcpu hram
    show ((p.assign c.1 c.2).after cs).remainingCpu.getD host 0 + _ = _ ∧
      ((p.assign c.1 c.2).after cs).remainingRam.getD host 0 + _ = _
    rw [on_cons]
    by_cases heq : c.2 = host
    · subst heq
      simp only [if_true, List.map_cons, List.sum_cons, Placement.assign] at hcpu hram ⊢
      omega
    · simp only [heq, if_false, Placement.assign] at hcpu hram ⊢
      exact ⟨hcpu, hram⟩

theorem keys_after : (p.after cs).assignments.keys = p.assignments.keys := by
  induction cs generalizing p with
  | nil => rfl
  | cons c cs ih =>
    show ((p.assign c.1 c.2).after cs).assignments.keys = _
    rw [ih, Placement.assign, Dict.keys_modify]

/-- The host of every choice is one of the table. -/
theorem mem_keys_of_greedy (h : Greedy hosts prefs p cs) {c : Choice} (hc : c ∈ cs) :
    c.2 ∈ hosts.keys := by
  induction cs generalizing p with
  | nil => exact absurd hc (by simp)
  | cons c' cs ih =>
    rcases List.mem_cons.1 hc with rfl | hc
    · exact (fits_of_bestHost h.1).1
    · exact ih h.2 hc

end On

end Scheduler

end Dnlab
