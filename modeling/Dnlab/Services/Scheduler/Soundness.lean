import Dnlab.Services.Scheduler.Assignment

/-!
# The schedule is sound

What a successful schedule promises about the assignments and the links
(`Sound`), by the choices that it comes from (`ChosenBy`), and when there is none.
-/

namespace Dnlab.Scheduler

variable {topo topo' : DistributedTopology} {vds : Dict String VDResources}
  {hosts : Dict String HostResources} {prefs : Dict String String} {plan : SchedulePlan}

/-- Devices are recorded under their names. -/
def Keyed (vds : Dict String VDResources) : Prop := ∀ n r, vds.get? n = some r → r.name = n

/-- The link that a link between hosts carries. -/
def linkOf (c : CrossHostLink) : Link := ⟨c.sourceNode, c.sourceIface, c.targetNode, c.targetIface⟩

/-- Whether the ends of a link are on the same host. -/
def isLocal (plan : SchedulePlan) (l : Link) : Bool :=
  plan.hostForVd l.source = plan.hostForVd l.target

/-! ## The choices of a schedule -/

/-- The choices that a plan comes from. -/
structure ChosenBy (vds : Dict String VDResources) (hosts : Dict String HostResources)
    (prefs : Dict String String) (plan : SchedulePlan) (cs : List Choice) : Prop where
  devices : cs.map Prod.fst = sortedVds vds
  greedy : Greedy hosts prefs (initialPlacement hosts) cs
  assignments : plan.assignments = ((initialPlacement hosts).after cs).assignments

theorem exists_choices (h : computeSchedule topo vds hosts prefs = .ok (topo', plan)) :
    ∃ cs, ChosenBy vds hosts prefs plan cs := by
  obtain ⟨placement, nets, hplacement, -, -, rfl⟩ := computeSchedule_eq_ok h
  obtain ⟨cs, hcs, hg, rfl⟩ := assignAll_eq_ok.1 hplacement
  exact ⟨cs, hcs, hg, rfl⟩

theorem mem_sortedVds {r : VDResources} : r ∈ sortedVds vds ↔ ∃ n, vds.get? n = some r := by
  rw [sortedVds, List.mem_insertionSort, Dict.mem_values_iff]

/-- The devices are sorted by descending weight, each once. -/
theorem nodup_names_sortedVds (hk : Keyed vds) : ((sortedVds vds).map (·.name)).Nodup := by
  have hperm := (List.perm_insertionSort (fun a b : VDResources => b.weight ≤ a.weight)
    vds.values).map (·.name)
  have hkeys : vds.values.map (·.name) = vds.keys := by
    rw [Dict.values, Dict.keys, List.map_map]
    exact List.map_congr_left fun e he => hk e.1 e.2 (Dict.get?_eq_some_iff.2 he)
  rw [hkeys] at hperm
  exact hperm.nodup_iff.2 vds.nodup_keys'

namespace ChosenBy

variable {cs : List Choice} {host n : String}

theorem get?_name (hk : Keyed vds) (hc : ChosenBy vds hosts prefs plan cs) {c : Choice}
    (h : c ∈ cs) : vds.get? c.1.name = some c.1 := by
  have hmem : c.1 ∈ sortedVds vds := hc.devices ▸ List.mem_map_of_mem h
  obtain ⟨n, hn⟩ := mem_sortedVds.1 hmem
  rwa [hk n c.1 hn]

theorem exists_of_mem (hk : Keyed vds) (hc : ChosenBy vds hosts prefs plan cs)
    (h : n ∈ vds.keys) : ∃ c ∈ cs, c.1.name = n := by
  obtain ⟨r, hr⟩ := Dict.mem_keys_iff.1 h
  have hmem : r ∈ cs.map Prod.fst := hc.devices ▸ mem_sortedVds.2 ⟨n, hr⟩
  obtain ⟨c, hcs, rfl⟩ := List.mem_map.1 hmem
  exact ⟨c, hcs, hk n c.1 hr⟩

/-- A device is chosen for once. -/
theorem eq_of_name_eq (hk : Keyed vds) (hc : ChosenBy vds hosts prefs plan cs) {c c' : Choice}
    (h : c ∈ cs) (h' : c' ∈ cs) (hn : c.1.name = c'.1.name) : c = c' := by
  have hnodup := nodup_names_sortedVds hk
  rw [← hc.devices, List.map_map] at hnodup
  exact List.inj_on_of_nodup_map hnodup h h' hn

theorem nodup_on (hk : Keyed vds) (hc : ChosenBy vds hosts prefs plan cs) :
    ((on host cs).map (·.name)).Nodup := by
  have hnodup := nodup_names_sortedVds hk
  rw [← hc.devices] at hnodup
  exact hnodup.sublist ((List.filter_sublist.map _).map _)

/-- What the plan has for a host. -/
theorem get?_assignments (hc : ChosenBy vds hosts prefs plan cs) :
    plan.assignments.get? host = (hosts.get? host).map fun r =>
      { hostName := host
        hostIp := r.host
        vdNames := (on host cs).map (·.name)
        cpuUsed := ((on host cs).map (·.cpu)).sum
        ramMbUsed := ((on host cs).map (·.ramMb)).sum } := by
  rw [hc.assignments, get?_after, initialPlacement, Dict.get?_map, Option.map_map]
  simp [Function.comp_def]

theorem keys (hc : ChosenBy vds hosts prefs plan cs) : plan.assignments.keys = hosts.keys := by
  rw [hc.assignments, keys_after, initialPlacement, Dict.keys_map]

/-- A device is found on the host that was chosen for it. -/
theorem hostForVd (hk : Keyed vds) (hc : ChosenBy vds hosts prefs plan cs) {c : Choice}
    (h : c ∈ cs) : plan.hostForVd c.1.name = some c.2 := by
  cases hh : plan.hostForVd c.1.name with
  | none =>
    obtain ⟨r, hr⟩ := Dict.mem_keys_iff.1 (mem_keys_of_greedy hc.greedy h)
    have hget : plan.assignments.get? c.2 = some _ :=
      hc.get?_assignments.trans (congrArg _ hr)
    refine absurd ?_ (SchedulePlan.hostForVd_eq_none.1 hh _ _ hget)
    exact List.mem_map_of_mem (mem_on.2 h)
  | some host =>
    obtain ⟨a, ha, hn⟩ := SchedulePlan.hostForVd_eq_some hh
    rw [hc.get?_assignments, Option.map_eq_some_iff] at ha
    obtain ⟨r, -, rfl⟩ := ha
    obtain ⟨vd, hvd, hname⟩ := List.mem_map.1 hn
    have heq := hc.eq_of_name_eq hk (mem_on.1 hvd) h hname
    rw [← heq]

end ChosenBy

/-! ## Links -/

section Split

theorem splitAll_fst (i : ℕ) (links : List Link) :
    (splitAll topo plan i links).1 = links.filter (isLocal plan) := by
  induction links generalizing i with
  | nil => rfl
  | cons l links ih =>
    rw [splitAll]
    by_cases h : plan.hostForVd l.source = plan.hostForVd l.target
    · rw [if_pos h, List.filter_cons_of_pos (by simpa [isLocal] using h)]
      exact congrArg (l :: ·) (ih i)
    · rw [if_neg h, List.filter_cons_of_neg (by simpa [isLocal] using h)]
      exact ih (i + 1)

theorem map_linkOf_splitAll (i : ℕ) (links : List Link) :
    (splitAll topo plan i links).2.map linkOf = links.filter fun l => !isLocal plan l := by
  induction links generalizing i with
  | nil => rfl
  | cons l links ih =>
    rw [splitAll]
    by_cases h : plan.hostForVd l.source = plan.hostForVd l.target
    · rw [if_pos h, List.filter_cons_of_neg (by simpa [isLocal] using h)]
      exact ih i
    · rw [if_neg h, List.filter_cons_of_pos (by simpa [isLocal] using h)]
      exact congrArg (l :: ·) (ih (i + 1))

/-- The links between hosts are numbered. -/
theorem map_vxlanId_splitAll (i : ℕ) (links : List Link) :
    (splitAll topo plan i links).2.map (·.vxlanId) =
      List.range' (Ids.dataplaneVxlanBase topo.name + i) (splitAll topo plan i links).2.length := by
  induction links generalizing i with
  | nil => rfl
  | cons l links ih =>
    rw [splitAll]
    by_cases h : plan.hostForVd l.source = plan.hostForVd l.target
    · rw [if_pos h]
      exact ih i
    · rw [if_neg h]
      exact congrArg (_ :: ·) (ih (i + 1))

/-- Making the names unique changes nothing else. -/
theorem map_uniqueOnHosts {α : Type} {f : CrossHostLink → α}
    (hf : ∀ c src tgt, f (withIfaces c src tgt) = f c) (names : List String)
    (links : List CrossHostLink) : (uniqueOnHosts names links).map f = links.map f := by
  refine List.ext_getElem? fun i => ?_
  rw [List.getElem?_map, getElem?_uniqueOnHosts, List.getElem?_map, Option.map_map]
  exact congrArg (Option.map · links[i]?) (funext fun c => hf c _ _)

end Split

/-! ## Soundness -/

/-- What a successful schedule promises. -/
structure Sound (topo : DistributedTopology) (vds : Dict String VDResources)
    (hosts : Dict String HostResources) (prefs : Dict String String) (plan : SchedulePlan) :
    Prop where
  /-- Every device is assigned to exactly one host, which is known. -/
  assigned : ∀ n ∈ vds.keys, ∃! host, host ∈ hosts.keys ∧
    ∃ a, plan.assignments.get? host = some a ∧ n ∈ a.vdNames
  /-- A host lists devices of the table, each once. -/
  listed : ∀ host a, plan.assignments.get? host = some a →
    host ∈ hosts.keys ∧ a.vdNames.Nodup ∧ ∀ n ∈ a.vdNames, n ∈ vds.keys
  /-- A host is charged what its devices need. -/
  charged : ∀ host a, plan.assignments.get? host = some a →
    (⟨a.cpuUsed, a.ramMbUsed⟩ : ResourcesUsed) = needed vds a.vdNames
  /-- A host is charged no more than it has. -/
  capacity : ∀ host a r, plan.assignments.get? host = some a → hosts.get? host = some r →
    a.cpuUsed ≤ r.cpuAvailable ∧ a.ramMbUsed ≤ r.ramMbAvailable
  /-- A device that does not stay on the host it prefers goes to the master only if it fitted on no
      worker when its turn came. -/
  masterLast : ∀ before vd after, sortedVds vds = before ++ vd :: after →
    ∃ p, assignAll hosts prefs (initialPlacement hosts) before = .ok p ∧
      ∀ host r, plan.hostForVd vd.name = some host → hosts.get? host = some r →
        r.isMaster = true → ¬Sticks hosts prefs p vd host →
        ∀ w s, hosts.get? w = some s → s.isMaster = false → ¬canFit p vd w
  /-- A link is local just if its ends share a host. -/
  shares : ∀ l ∈ topo.links, isLocal plan l = true ↔
    ∃ host a, plan.assignments.get? host = some a ∧ l.source ∈ a.vdNames ∧ l.target ∈ a.vdNames
  /-- The local links are those within a host. -/
  within : plan.localLinks = topo.links.filter (isLocal plan)
  /-- All others are between hosts. -/
  across : plan.crossHostLinks.map linkOf = topo.links.filter fun l => !isLocal plan l
  /-- No two of these have the same VXLAN id. -/
  vnis : (plan.crossHostLinks.map (·.vxlanId)).Nodup

theorem sound_of_computeSchedule (hk : Keyed vds)
    (hlinks : ∀ l ∈ topo.links, l.source ∈ vds.keys ∧ l.target ∈ vds.keys)
    (h : computeSchedule topo vds hosts prefs = .ok (topo', plan)) :
    Sound topo vds hosts prefs plan := by
  obtain ⟨cs, hc⟩ := exists_choices h
  obtain ⟨placement, nets, -, -, -, hplan⟩ := computeSchedule_eq_ok h
  have hhost : plan.hostForVd = (barePlan topo placement.assignments).hostForVd := by
    rw [hplan]
    rfl
  have hlocal : isLocal plan = isLocal (barePlan topo placement.assignments) := by
    funext l
    rw [isLocal, isLocal, hhost]
  have hget : ∀ {host a}, plan.assignments.get? host = some a → ∃ r, hosts.get? host = some r ∧
      a.vdNames = (on host cs).map (·.name) ∧ a.cpuUsed = ((on host cs).map (·.cpu)).sum ∧
      a.ramMbUsed = ((on host cs).map (·.ramMb)).sum := by
    intro host a ha
    rw [hc.get?_assignments, Option.map_eq_some_iff] at ha
    obtain ⟨r, hr, rfl⟩ := ha
    exact ⟨r, hr, rfl, rfl, rfl⟩
  constructor
  · intro n hn
    obtain ⟨c, hcs, rfl⟩ := hc.exists_of_mem hk hn
    obtain ⟨a, ha, hna⟩ := SchedulePlan.hostForVd_eq_some (hc.hostForVd hk hcs)
    refine ⟨c.2, ⟨mem_keys_of_greedy hc.greedy hcs, a, ha, hna⟩, ?_⟩
    rintro host ⟨-, a', ha', hna'⟩
    obtain ⟨r, -, hvd, -⟩ := hget ha'
    rw [hvd] at hna'
    obtain ⟨vd, hvd', hname⟩ := List.mem_map.1 hna'
    exact congrArg Prod.snd (hc.eq_of_name_eq hk (mem_on.1 hvd') hcs hname)
  · intro host a ha
    obtain ⟨r, hr, hvd, -⟩ := hget ha
    refine ⟨Dict.mem_keys_iff.2 ⟨r, hr⟩, hvd ▸ hc.nodup_on hk, fun n hn => ?_⟩
    rw [hvd] at hn
    obtain ⟨vd, hvd', rfl⟩ := List.mem_map.1 hn
    exact Dict.mem_keys_iff.2 ⟨vd, hc.get?_name hk (mem_on.1 hvd')⟩
  · intro host a ha
    obtain ⟨r, -, hvd, hcpu, hram⟩ := hget ha
    rw [hvd, hcpu, hram, needed_map_name fun vd hvd' => hc.get?_name hk (mem_on.1 hvd')]
  · intro host a r ha hr
    obtain ⟨r', hr', -, hcpu, hram⟩ := hget ha
    obtain rfl := Option.some.inj (hr.symm.trans hr')
    have hc₁ := (@remaining_after _ _ host _ _ hc.greedy).1
    have hr₁ := (@remaining_after _ _ host _ _ hc.greedy).2
    have hcpu₀ : (initialPlacement hosts).remainingCpu.getD host 0 = r.cpuAvailable := by
      rw [initialPlacement, Dict.getD, Dict.get?_map, hr]
      rfl
    have hram₀ : (initialPlacement hosts).remainingRam.getD host 0 = r.ramMbAvailable := by
      rw [initialPlacement, Dict.getD, Dict.get?_map, hr]
      rfl
    omega
  · intro before vd after hsorted
    -- The choices before the device lead to the placement that it is chosen in.
    rw [← hc.devices] at hsorted
    obtain ⟨cs₁, cs₂, rfl, hcs₁, hcs₂⟩ := List.map_eq_append_iff.1 hsorted
    obtain ⟨c, cs₃, rfl, hc₃, -⟩ := List.map_eq_cons_iff.1 hcs₂
    obtain ⟨hg₁, hg₂⟩ := greedy_append.1 hc.greedy
    refine ⟨_, assignAll_eq_ok.2 ⟨cs₁, hcs₁, hg₁, rfl⟩, ?_⟩
    intro host r hhost' hr hmaster hsticks w s hw hworker
    have hmem : c ∈ cs₁ ++ c :: cs₃ := List.mem_append_right _ List.mem_cons_self
    have hown := hc.hostForVd hk hmem
    rw [hc₃] at hown
    obtain rfl := Option.some.inj (hown.symm.trans hhost')
    exact noWorker_of_bestHost (hc₃ ▸ hg₂.1) hsticks hr hmaster hw hworker
  · intro l hl
    obtain ⟨hs, ht⟩ := hlinks l hl
    obtain ⟨c, hcs, hcn⟩ := hc.exists_of_mem hk hs
    obtain ⟨c', hcs', hcn'⟩ := hc.exists_of_mem hk ht
    rw [isLocal, decide_eq_true_eq, ← hcn, ← hcn', hc.hostForVd hk hcs, hc.hostForVd hk hcs',
      Option.some.injEq]
    constructor
    · intro heq
      obtain ⟨a, ha, hn⟩ := SchedulePlan.hostForVd_eq_some (hc.hostForVd hk hcs)
      obtain ⟨a', ha', hn'⟩ := SchedulePlan.hostForVd_eq_some (hc.hostForVd hk hcs')
      rw [← heq, ha] at ha'
      exact ⟨c.2, a, ha, hn, Option.some.inj ha' ▸ hn'⟩
    · rintro ⟨host, a, ha, hn, hn'⟩
      have hown : ∀ {d : Choice}, d ∈ cs → d.1.name ∈ a.vdNames → d.2 = host := by
        intro d hd hdn
        obtain ⟨r, -, hvd, -⟩ := hget ha
        rw [hvd] at hdn
        obtain ⟨vd, hvd', hname⟩ := List.mem_map.1 hdn
        exact (congrArg Prod.snd (hc.eq_of_name_eq hk (mem_on.1 hvd') hd hname)).symm
      rw [hown hcs hn, hown hcs' hn']
  · rw [hlocal, hplan]
    exact splitAll_fst 0 topo.links
  · rw [hlocal, hplan]
    exact (map_uniqueOnHosts (fun _ _ _ => rfl) _ _).trans (map_linkOf_splitAll 0 topo.links)
  · rw [hplan]
    have hmap := map_uniqueOnHosts (f := CrossHostLink.vxlanId) (fun _ _ _ => rfl)
    rw [hmap, map_vxlanId_splitAll]
    exact List.nodup_range'

theorem kind_scheduleError_of_assignAll {p : Placement} {rest : List VDResources} {e : Err}
    (h : assignAll hosts prefs p rest = .error e) : e.kind = .schedule := by
  induction rest generalizing p with
  | nil => cases h
  | cons vd rest ih =>
    rw [assignAll] at h
    cases hb : bestHost hosts prefs p vd with
    | none =>
      rw [hb] at h
      exact congrArg Err.kind (Except.error.inj h).symm
    | some host =>
      rw [hb] at h
      exact ih h

/-- An assignment stops at a device that fits nowhere. -/
theorem assignAll_of_noFit {p p' : Placement} {before after : List VDResources} {vd : VDResources}
    (hbefore : assignAll hosts prefs p before = .ok p')
    (hno : ∀ host ∈ hosts.keys, ¬canFit p' vd host) :
    ∃ e, assignAll hosts prefs p (before ++ vd :: after) = .error e := by
  cases h : assignAll hosts prefs p (before ++ vd :: after) with
  | error e => exact ⟨e, rfl⟩
  | ok p'' =>
    obtain ⟨cs, hcs, hg, -⟩ := assignAll_eq_ok.1 h
    obtain ⟨cs₁, cs₂, rfl, hcs₁, hcs₂⟩ := List.map_eq_append_iff.1 hcs
    obtain ⟨c, cs₃, rfl, rfl, -⟩ := List.map_eq_cons_iff.1 hcs₂
    obtain ⟨hg₁, hg₂⟩ := greedy_append.1 hg
    have hp' := assignAll_eq_ok.2 ⟨cs₁, hcs₁, hg₁, rfl⟩
    obtain rfl := Except.ok.inj (hbefore.symm.trans hp')
    exact absurd (bestHost_eq_none.2 hno) (by rw [hg₂.1]; simp)

/-- A schedule is sound, and there is none where the demand exceeds the capacity or a device fits
    nowhere. -/
theorem computeSchedule_sound (topo : DistributedTopology) (vds : Dict String VDResources)
    (hosts : Dict String HostResources) (prefs : Dict String String) (hk : Keyed vds)
    (hlinks : ∀ l ∈ topo.links, l.source ∈ vds.keys ∧ l.target ∈ vds.keys) :
    (∀ topo' plan, computeSchedule topo vds hosts prefs = .ok (topo', plan) →
      Sound topo vds hosts prefs plan) ∧
    ((vds.values.map (·.cpu)).sum > (hosts.values.map (·.cpuAvailable)).sum ∨
      (vds.values.map (·.ramMb)).sum > (hosts.values.map (·.ramMbAvailable)).sum →
      ∃ e, computeSchedule topo vds hosts prefs = .error e ∧ e.kind = .schedule) ∧
    ∀ before vd after p, sortedVds vds = before ++ vd :: after →
      assignAll hosts prefs (initialPlacement hosts) before = .ok p →
      (∀ host ∈ hosts.keys, ¬canFit p vd host) →
      ∃ e, computeSchedule topo vds hosts prefs = .error e ∧ e.kind = .schedule := by
  refine ⟨fun _ _ h => sound_of_computeSchedule hk hlinks h, fun hover => ?_, ?_⟩
  · exact ⟨_, if_pos hover, rfl⟩
  · intro before vd after p hsorted hbefore hno
    by_cases hover : (vds.values.map (·.cpu)).sum > (hosts.values.map (·.cpuAvailable)).sum ∨
        (vds.values.map (·.ramMb)).sum > (hosts.values.map (·.ramMbAvailable)).sum
    · exact ⟨_, if_pos hover, rfl⟩
    · obtain ⟨e, he⟩ : ∃ e, assignAll hosts prefs (initialPlacement hosts)
          (before ++ vd :: after) = .error e := assignAll_of_noFit hbefore hno
      rw [← hsorted] at he
      refine ⟨e, (if_neg hover).trans ?_, kind_scheduleError_of_assignAll he⟩
      rw [he]
      rfl

/-! ### Two linked routers -/

/-- Two routers and their link. -/
def twoRouters : DistributedTopology where
  name := "two"
  master := { name := "master", host := "10.0.0.1", isMaster := true }
  workers := .ofList [("w1", { name := "w1", host := "10.0.0.2" })]
  underlayIface := "eth0"
  nodes := .ofList [("r1", ⟨"r1", "linux", "alpine:3", "", false, ∅, ∅, ""⟩),
    ("r2", ⟨"r2", "linux", "alpine:3", "", false, ∅, ∅, ""⟩)]
  links := [⟨"r1", "eth1", "r2", "eth1"⟩]
  mgmt :=
    { network := "mgmt", bridge := "br-mgmt", ipv4Subnet := "172.20.0.0/24"
      ipv4Gw := "172.20.0.1" }

/-- What the routers need. -/
def twoDemands : Dict String VDResources :=
  .ofList [("r1", ⟨"r1", "alpine:3", 1, 256⟩), ("r2", ⟨"r2", "alpine:3", 1, 256⟩)]

/-- A worker, which has room for one of them, and the master. -/
def twoHosts : Dict String HostResources :=
  .ofList [("master", ⟨"master", "10.0.0.1", 8, 16384, true⟩), ("w1", ⟨"w1", "10.0.0.2", 1, 512, false⟩)]

theorem keyed_twoDemands : Keyed twoDemands := fun n r h => by
  have hmem : (n, r) ∈ twoDemands.items := Dict.get?_eq_some_iff.1 h
  have hall : ∀ e ∈ twoDemands.items, e.2.name = e.1 := by decide
  exact hall _ hmem

theorem links_twoRouters :
    ∀ l ∈ twoRouters.links, l.source ∈ twoDemands.keys ∧ l.target ∈ twoDemands.keys := by
  decide

theorem exists_twoPlan : ∃ r, computeSchedule twoRouters twoDemands twoHosts ∅ = .ok r := by
  have hok : (computeSchedule twoRouters twoDemands twoHosts ∅).isOk = true := by decide
  cases h : computeSchedule twoRouters twoDemands twoHosts ∅ with
  | ok r => exact ⟨r, rfl⟩
  | error e =>
    rw [h] at hok
    cases hok

theorem computeSchedule_sound_two :
    ∃ r, computeSchedule twoRouters twoDemands twoHosts ∅ = .ok r ∧
      Sound twoRouters twoDemands twoHosts ∅ r.2 := by
  obtain ⟨r, hr⟩ := exists_twoPlan
  exact ⟨r, hr, (computeSchedule_sound twoRouters twoDemands twoHosts ∅ keyed_twoDemands
    links_twoRouters).1 r.1 r.2 hr⟩

end Dnlab.Scheduler
