import Dnlab.Controllers.Deploy
import Dnlab.Controllers.Node.Frame
import Dnlab.Lib.Numeral
import Dnlab.Services.Persistence.History
import Mathlib.Data.List.Lex
import Mathlib.Data.Prod.Lex
import Mathlib.Order.Lattice

/-!
# The host of a device that is added

A device that is added to a running lab goes to the least of the hosts that have
its image and the resources it needs (`IsBest`): a worker before the master, then
the one with fewer devices, then the one with more memory. A deployment of the
whole lab keeps a device with the overlay it left on a host
(`Persistence.bestHost_of_history`); adding one does not look at the history, so
it finds its overlay just if the order of the hosts happens to choose the same
(`add_onOverlay_iff`).
-/

namespace Dnlab.Node

open Ctl

/-! ## The order of the candidates -/

namespace Candidate

variable {c d : Candidate}

/-- What candidates are compared by. -/
def key (c : Candidate) : Bool ×ₗ ℕ ×ₗ ℕᵒᵈ ×ₗ List Char :=
  toLex (c.isMaster, toLex (c.running, toLex (OrderDual.toDual c.ram, c.host.toList)))

theorem key_injective : Function.Injective key := by
  rintro ⟨m, n, r, h⟩ ⟨m', n', r', h'⟩ heq
  simp only [key, EmbeddingLike.apply_eq_iff_eq, Prod.mk.injEq, String.toList_inj] at heq
  obtain ⟨rfl, rfl, rfl, rfl⟩ := heq
  rfl

theorem lt_iff : c.lt d = true ↔ c.key < d.key := by
  simp only [lt, key, Prod.Lex.toLex_lt_toLex, OrderDual.toDual_lt_toDual]
  by_cases hm : c.isMaster = d.isMaster
  · by_cases hn : c.running = d.running
    · by_cases hr : c.ram = d.ram
      · simp [hm, hn, hr]
      · simp [hm, hn, hr]
    · simp [hm, hn]
  · cases hc : c.isMaster <;> cases hd : d.isMaster <;> simp_all

/-- Whether `c` is the least of some candidates. -/
def Least (cs : List Candidate) (c : Candidate) : Prop := c ∈ cs ∧ ∀ d ∈ cs, d ≠ c → c.lt d = true

theorem least_iff {cs : List Candidate} :
    Least cs c ↔ c ∈ cs ∧ ∀ d ∈ cs, c.key ≤ d.key := by
  refine and_congr_right fun _ => forall₂_congr fun d _ => ?_
  rw [lt_iff, le_iff_lt_or_eq, key_injective.eq_iff, or_iff_not_imp_right, ne_comm]

theorem Least.unique {cs : List Candidate} (hc : Least cs c) (hd : Least cs d) : c = d := by
  rw [least_iff] at hc hd
  exact key_injective (le_antisymm (hc.2 d hd.1) (hd.2 c hc.1))

end Candidate

theorem bestCandidate_least {cs : List Candidate} {c : Candidate} (h : bestCandidate cs = some c) :
    c.Least cs := by
  rcases cs with _ | ⟨c₀, cs⟩
  · cases h
  rw [bestCandidate, Option.some.injEq] at h
  rw [Candidate.least_iff, ← h]
  clear h
  induction cs generalizing c₀ with
  | nil => exact ⟨List.mem_cons_self, fun d hd => by rw [List.mem_singleton.1 hd]; rfl⟩
  | cons d cs ih =>
    rw [List.foldl_cons]
    obtain ⟨hmem, hle⟩ := ih (if d.lt c₀ then d else c₀)
    -- The first two are replaced by the lesser of them.
    have hfirst : (if d.lt c₀ then d else c₀).key ≤ c₀.key ∧
        (if d.lt c₀ then d else c₀).key ≤ d.key ∧ (if d.lt c₀ then d else c₀) ∈ [c₀, d] := by
      split
      · exact ⟨(Candidate.lt_iff.1 ‹_›).le, le_rfl, by simp⟩
      · exact ⟨le_rfl, not_lt.1 fun h => ‹¬_› (Candidate.lt_iff.2 h), by simp⟩
    refine ⟨?_, fun e he => ?_⟩
    · rcases List.mem_cons.1 hmem with hm | hm
      · rw [hm]
        exact List.mem_append_left cs hfirst.2.2
      · exact List.mem_cons_of_mem _ (List.mem_cons_of_mem _ hm)
    · have hself := hle _ List.mem_cons_self
      rcases List.mem_cons.1 he with rfl | he
      · exact hself.trans hfirst.1
      · rcases List.mem_cons.1 he with rfl | he
        · exact hself.trans hfirst.2.1
        · exact hle e (List.mem_cons_of_mem _ he)

/-! ## Hosts with fixed resources -/

/-- What the hosts have, and what the device that is added needs. -/
structure HostTable where
  cpu : (host : String) → ℕ
  ramMb : (host : String) → ℕ
  images : (host : String) → List String
  neededCpu : ℕ
  neededRam : ℕ

namespace HostTable

variable {ρ : Type} (T : HostTable)

/-- What the device that is added needs. -/
def demand (node image : String) : VDResources := ⟨node, image, T.neededCpu, T.neededRam⟩

/-- Hosts that answer from the table when they are asked what they have. -/
def backend (B : Backend ρ) : Backend ρ where
  exec host cmd r :=
    match cmd with
    | .nproc => (.ok ⟨0, toString (T.cpu host), ""⟩, r)
    | .freeRam => (.ok ⟨0, toString (T.ramMb host), ""⟩, r)
    | .imageId image => (.ok ⟨if image ∈ T.images host then 0 else 1, "", ""⟩, r)
    | cmd => B.exec host cmd r
  cancelled := B.cancelled
  patience := B.patience
  now := B.now

/-- Services on such hosts. -/
def services (S : Services ρ) : Services ρ :=
  { S with
    backend := T.backend S.backend
    extractResources := fun _ vd r => (.ok (T.demand vd.name vd.image), r) }

/-- The resources of the hosts, as they are gathered. -/
def resources (hosts : Dict String InfraHost) : Dict String HostResources :=
  hosts.map fun name infra =>
    { name := name
      host := infra.host
      cpuAvailable := T.cpu name
      ramMbAvailable := T.ramMb name
      isMaster := name = "master" }

/-- Whether a host has an image, and the resources that the device needs. -/
def eligible (image host : String) : Bool :=
  image ∈ T.images host ∧ T.neededCpu ≤ T.cpu host ∧ T.neededRam ≤ T.ramMb host

/-- A host as a candidate. -/
def candidate (st : DeploymentState) (host : String) : Candidate where
  isMaster := host = "master"
  running := st.nodeRuntime.values.countP (·.host = host)
  ram := T.ramMb host
  host := host

/-- The candidates for a device. -/
def candidates (hosts : Dict String InfraHost) (st : DeploymentState) (image : String) :
    List Candidate :=
  (hosts.keys.filter (T.eligible image)).map (T.candidate st)

/-- The host that a new device goes to. -/
def IsBest (hosts : Dict String InfraHost) (st : DeploymentState) (image host : String) : Prop :=
  (T.candidate st host).Least (T.candidates hosts st image)

variable {T} {hosts : Dict String InfraHost} {st : DeploymentState} {image host : String}

theorem eligible_iff : T.eligible image host = true ↔
    image ∈ T.images host ∧ T.neededCpu ≤ T.cpu host ∧ T.neededRam ≤ T.ramMb host := by
  simp [eligible]

theorem mem_candidates {c : Candidate} : c ∈ T.candidates hosts st image ↔
    ∃ host ∈ hosts.keys, T.eligible image host ∧ T.candidate st host = c := by
  simp [candidates, and_assoc]

theorem isBest_iff : T.IsBest hosts st image host ↔
    (host ∈ hosts.keys ∧ T.eligible image host) ∧ ∀ g ∈ hosts.keys, g ≠ host →
      T.eligible image g → (T.candidate st host).lt (T.candidate st g) = true := by
  have hname : ∀ {g g' : String}, T.candidate st g = T.candidate st g' → g = g' :=
    fun h => congrArg Candidate.host h
  refine and_congr ?_ ?_
  · rw [mem_candidates]
    constructor
    · rintro ⟨g, hg, he, heq⟩
      obtain rfl := hname heq
      exact ⟨hg, he⟩
    · exact fun h => ⟨host, h.1, h.2, rfl⟩
  · constructor
    · exact fun h g hg hne he =>
        h _ (mem_candidates.2 ⟨g, hg, he, rfl⟩) fun heq => hne (hname heq)
    · intro h d hd hne
      obtain ⟨g, hg, he, rfl⟩ := mem_candidates.1 hd
      exact h g hg (fun heq => hne (heq ▸ rfl)) he

theorem IsBest.unique {host' : String} (h : T.IsBest hosts st image host)
    (h' : T.IsBest hosts st image host') : host = host' :=
  congrArg Candidate.host (Candidate.Least.unique h h')

end HostTable

/-! ## The choice of a host -/

section Choice

variable {ρ : Type} {S : Services ρ} {T : HostTable} {hosts : Clients} {node image : String}
  {before : DeploymentState}

theorem readNat_toString (n : ℕ) : Scheduler.readNat (toString n) = .ok n := by
  rw [Scheduler.readNat, Text.stripSpaces_digits Text.isDigit_toString, Text.toInt?_toString]
  rfl

/-- `p` ends normally with `a` from every state. -/
abbrev Answers {σ α : Type} (p : Prog σ Err α) (a : α) : Prop :=
  Prog.Triple (fun _ => True) p (fun b _ => True ∧ b = a) fun _ _ => False

/-- A command that every host answers in the same way, whatever happened before. -/
theorem runNoCheck_answers {B : Backend ρ} {host : String} {cmd : Cmd} {a : Reply}
    (hhost : host ∈ hosts.keys) (hexec : ∀ r, (B.exec host cmd r).1 = .ok a) :
    Answers (hosts.runNoCheck B host cmd) a := by
  intro r _
  obtain ⟨c, hc⟩ := Dict.mem_keys_iff.1 hhost
  have hrun : ((hosts.runNoCheck B host cmd).run r).1 = .ok a := by
    rw [Clients.runNoCheck, hc]
    exact hexec r.env
  rcases h : (hosts.runNoCheck B host cmd).run r with ⟨e | r', s⟩ <;> rw [h] at hrun
  · cases hrun
  · exact ⟨trivial, Except.ok.inj hrun⟩

/-- The output of a command that succeeds. -/
theorem run_answers {B : Backend ρ} {host out err : String} {cmd : Cmd} (hhost : host ∈ hosts.keys)
    (hexec : ∀ r, (B.exec host cmd r).1 = .ok ⟨0, out, err⟩) :
    Answers (hosts.run B host cmd true) out := by
  obtain ⟨c, hc⟩ := Dict.mem_keys_iff.1 hhost
  have hanswer := runNoCheck_answers hhost hexec
  rw [Clients.runNoCheck, hc] at hanswer
  rw [Clients.run, hc]
  refine .bind hanswer fun a => .of_and ?_
  rintro rfl
  exact .ite (fun hrc => absurd rfl hrc.1) fun _ => .pure fun _ _ => ⟨trivial, rfl⟩

theorem queryHost_answers {infra : InfraHost} {host : String} (hhost : host ∈ hosts.keys) :
    Answers (Scheduler.queryHost (T.backend S.backend) hosts host infra)
      (host, ⟨host, infra.host, T.cpu host, T.ramMb host, host = "master"⟩) := by
  refine .rescue (E := fun _ _ => False) ?_ fun e s hs => hs.elim
  refine .bind (run_answers hhost fun _ => rfl) fun _ => .of_and ?_
  rintro rfl
  refine .bind (run_answers hhost fun _ => rfl) fun _ => .of_and ?_
  rintro rfl
  rw [readNat_toString, readNat_toString]
  exact .bind (Q := fun n _ => True ∧ n = T.cpu host) (.pure fun _ _ => ⟨trivial, rfl⟩) fun n =>
    .of_and fun hn => .bind (Q := fun n _ => True ∧ n = T.ramMb host)
      (.pure fun _ _ => ⟨trivial, rfl⟩) fun n' => .of_and fun hn' =>
        .pure fun _ _ => ⟨trivial, by rw [hn, hn']⟩

/-- The resources that are gathered are those of the table. -/
theorem gatherHostResources_answers :
    Answers (Scheduler.gatherHostResources (T.backend S.backend) hosts) (T.resources hosts) := by
  refine .bind (.mapEach_eq fun b hb => queryHost_answers (List.mem_map_of_mem hb)) fun _ =>
    .of_and ?_
  rintro rfl
  refine .pure fun _ _ => ⟨trivial, Dict.ext ?_⟩
  refine Dict.items_ofList_of_nodup ?_
  rw [List.map_map]
  exact hosts.nodup_keys

/-- A program of the hosts whose result is known. -/
theorem remotely_spec {α : Type} {p : Prog (Remote ρ) Err α} {a : α} {P : World ρ → Prop}
    {E : Err → World ρ → Prop} (hp : Answers p a)
    (hP : ∀ w r, P w → P { w with remote := r }) :
    Prog.Triple P (remotely p) (fun b w => P w ∧ b = a) E := by
  intro w hw
  have hp' := hp w.remote trivial
  have hw' := hP w (p.run w.remote).2 hw
  have hrun : (remotely p).run w = ((p.run w.remote).1, { w with remote := (p.run w.remote).2 }) :=
    rfl
  rw [hrun]
  rcases h : p.run w.remote with ⟨e | b, r⟩ <;> rw [h] at hp' hw'
  · exact hp'.elim
  · exact ⟨hw', hp'.2⟩

/-- The world of an `add` that has not registered its device. -/
structure Awaiting (before : DeploymentState) (hosts : Clients) (node image : String)
    (w : World ρ) : Prop where
  notMem : node ∉ before.nodeRuntime.keys
  runtime : w.state.nodeRuntime = before.nodeRuntime
  image : ∀ vd, w.topo.nodes.get? node = some vd → vd.image = image
  hosts : w.topo.allHosts = hosts

theorem Awaiting.remote {w : World ρ} {r : Remote ρ} (h : Awaiting before hosts node image w) :
    Awaiting before hosts node image { w with remote := r } :=
  ⟨h.notMem, h.runtime, h.image, h.hosts⟩

theorem Calm.awaiting {Q : Event → Prop} {w w' : World ρ} (hc : Calm Q node w w')
    (h : Awaiting before hosts node image w) : Awaiting before hosts node image w' where
  notMem := h.notMem
  runtime := by
    have hnot : node ∉ w.state.nodeRuntime.keys := h.runtime ▸ h.notMem
    have hnot' : node ∉ w'.state.nodeRuntime.keys := hc.state.keys ▸ hnot
    rw [← Dict.erase_of_notMem hnot', hc.state.others, Dict.erase_of_notMem hnot, h.runtime]
  image := hc.topo ▸ h.image
  hosts := hc.topo ▸ h.hosts

theorem awaiting_of_routine {α : Type} {p : Ctl ρ α} (h : Routine node p) :
    Prog.Triple (Awaiting before hosts node image) p (fun _ => Awaiting before hosts node image)
      fun _ => Awaiting before hosts node image :=
  .of_keeps (h.keeps fun _ _ => Calm.awaiting)

theorem candidateOn_spec {host : String} {infra : InfraHost} {name : String}
    {E : Err → World ρ → Prop} (hhost : host ∈ hosts.keys) :
    Prog.Triple (Awaiting before hosts node image)
      (candidateOn (T.services S) hosts image (T.demand name image) host
        ⟨host, infra.host, T.cpu host, T.ramMb host, host = "master"⟩)
      (fun c w => Awaiting before hosts node image w ∧
        c = if T.eligible image host then some (T.candidate before host) else none) E := by
  refine .bind (remotely_spec (runNoCheck_answers hhost fun _ => rfl) fun _ _ h => h.remote)
    fun reply => .of_and ?_
  rintro rfl
  have hstate : Prog.Triple (Awaiting before hosts node image) (state : Ctl ρ DeploymentState)
      (fun st w => Awaiting before hosts node image w ∧ st.nodeRuntime = before.nodeRuntime) E :=
    .bind (Q := fun w' w => Awaiting before hosts node image w ∧
      w'.state.nodeRuntime = before.nodeRuntime) (.get fun w hw => ⟨hw, hw.runtime⟩) fun w' =>
      .pure fun _ h => h
  refine .bind hstate fun st => .of_and fun hst => ?_
  have hcandidate : T.candidate before host =
      { isMaster := decide (host = "master")
        running := st.nodeRuntime.values.countP (·.host = host)
        ram := T.ramMb host
        host := host } := by
    rw [HostTable.candidate, hst]
  have hpure : ∀ {c c' : Option Candidate}, c = c' →
      Prog.Triple (Awaiting before hosts node image) (pure c : Ctl ρ (Option Candidate))
        (fun c w => Awaiting before hosts node image w ∧ c = c') E :=
    fun heq => .pure fun _ hw => ⟨hw, heq⟩
  by_cases himage : image ∈ T.images host
  · rw [if_pos himage, if_neg (not_not.2 rfl)]
    refine .ite (fun hlack => hpure (if_neg fun he => ?_).symm) fun hfits => hpure ?_
    · obtain ⟨-, hcpu, hram⟩ := HostTable.eligible_iff.1 he
      exact hlack.elim (not_lt.2 hcpu) (not_lt.2 hram)
    · rw [not_or, not_lt, not_lt] at hfits
      rw [if_pos (HostTable.eligible_iff.2 ⟨himage, hfits⟩), hcandidate]
  · rw [if_neg himage, if_pos (by decide)]
    exact hpure (if_neg fun he => himage (HostTable.eligible_iff.1 he).1).symm

/-- The host that is selected is the best one. -/
theorem selectAddHost_spec :
    Prog.Triple (Awaiting before hosts node image)
      (selectAddHost (T.services S) hosts node : Ctl ρ (String × VDResources))
      (fun a w => Awaiting before hosts node image w ∧ T.IsBest hosts before image a.1)
      fun _ => Awaiting before hosts node image := by
  have htopo : Prog.Triple (Awaiting before hosts node image) (topo : Ctl ρ DistributedTopology)
      (fun t w => Awaiting before hosts node image w ∧
        ∀ vd, t.nodes.get? node = some vd → vd.image = image)
      fun _ => Awaiting before hosts node image :=
    .bind (Q := fun w' w => Awaiting before hosts node image w ∧
      ∀ vd, w'.topo.nodes.get? node = some vd → vd.image = image)
      (.get fun w hw => ⟨hw, hw.image⟩) fun w' => .pure fun _ h => h
  refine .bind htopo fun t => .of_and fun ht => .bind (.ofExcept _) fun vd => .of_and fun hvd => ?_
  rw [ht vd (WarmLinks.nodeOf_eq_ok.1 hvd)]
  have hrequirement : Answers
      ((fun r => (((T.services S).extractResources t vd r.env).1,
        { r with env := ((T.services S).extractResources t vd r.env).2 }) :
          Prog (Remote ρ) Err VDResources))
      (T.demand vd.name vd.image) := fun r _ => ⟨trivial, rfl⟩
  refine .bind (remotely_spec hrequirement fun _ _ h => h.remote) fun requirement => .of_and ?_
  rintro rfl
  refine .bind (remotely_spec gatherHostResources_answers fun _ _ h => h.remote) fun available =>
    .of_and ?_
  rintro rfl
  rw [ht vd (WarmLinks.nodeOf_eq_ok.1 hvd)]
  refine .bind (.mapEach_eq (g := fun b => if T.eligible image b.1 then
    some (T.candidate before b.1) else none) fun b hb => ?_) fun found => .of_and ?_
  · obtain ⟨e, he, rfl⟩ := List.mem_map.1 hb
    exact candidateOn_spec (List.mem_map_of_mem he)
  rintro rfl
  have hcandidates : ((T.resources hosts).items.map fun b => if T.eligible image b.1 then
      some (T.candidate before b.1) else none).filterMap id = T.candidates hosts before image := by
    rw [List.filterMap_map, HostTable.candidates, HostTable.resources, Dict.map, List.filterMap_map,
      Dict.keys]
    induction hosts.items with
    | nil => rfl
    | cons e l ih =>
      rw [List.filterMap_cons, List.map_cons, List.filter_cons, ih]
      by_cases he : T.eligible image e.1 = true <;> simp [he]
  rw [hcandidates]
  cases hbest : bestCandidate (T.candidates hosts before image) with
  | none => exact .raise fun _ hw => hw
  | some c =>
    refine .pure fun _ hw => ⟨hw, ?_⟩
    have hleast := bestCandidate_least hbest
    obtain ⟨host, -, -, rfl⟩ := HostTable.mem_candidates.1 hleast.1
    exact hleast

theorem choosePlace_spec :
    Prog.Triple (Awaiting before hosts node image) (choosePlace (T.services S) hosts node)
      (fun a w => Awaiting before hosts node image w ∧ T.IsBest hosts before image a.1)
      fun _ => Awaiting before hosts node image := by
  refine .bind (awaiting_of_routine routine_connect) fun _ => ?_
  refine .bind (awaiting_of_routine routine_checkCancelled) fun _ => ?_
  refine .bind (awaiting_of_routine routine_resolveUnderlayIps) fun _ => ?_
  exact .bind selectAddHost_spec fun _ => .pure fun _ h => h

end Choice

/-! ## The place of the record -/

section Place

variable {ρ : Type} {S : Services ρ} {clients : Clients} {node host : String} {Q : String → Prop}

/-- A device has no record, or one on a host that satisfies `Q`. -/
def OnlyOn (Q : String → Prop) (node : String) (w : World ρ) : Prop :=
  ∀ r, w.state.nodeRuntime.get? node = some r → Q r.host

theorem onlyOn_congr {w w' : World ρ} (h : (w'.state.nodeRuntime.get? node).map (·.host) =
    (w.state.nodeRuntime.get? node).map (·.host)) (hw : OnlyOn Q node w) : OnlyOn Q node w' := by
  intro r hr
  rw [hr, Option.map_some] at h
  obtain ⟨r', hr', hh⟩ := Option.map_eq_some_iff.1 h.symm
  exact hh ▸ hw r' hr'

theorem Awaiting.onlyOn {before : DeploymentState} {image : String} {w : World ρ}
    (h : Awaiting before clients node image w) : OnlyOn Q node w := by
  intro r hr
  rw [h.runtime] at hr
  exact absurd (Dict.mem_keys_iff.2 ⟨r, hr⟩) h.notMem

theorem keeps_onlyOn {α : Type} {p : Ctl ρ α} (h : Prog.Within (Steady node) p) :
    Prog.Keeps (OnlyOn Q node) p :=
  h.keeps fun _ _ hs => onlyOn_congr (hs.state.host node)

theorem onlyOn_planPlace {requirement : VDResources} :
    Prog.Keeps (OnlyOn Q node) (planPlace S clients node host requirement) := by
  refine .bind (keeps_onlyOn (steady_of_routine routine_checkCancelled)) fun _ => ?_
  refine .bind (keeps_onlyOn (steady_of_routine Calm.topo')) fun t => .bind (.ofExcept _) fun vd => ?_
  refine .bind (keeps_onlyOn steady_remotely) fun env => .bind (.modify fun _ h => h) fun _ => ?_
  refine .bind .get fun w => ?_
  dsimp only
  split
  · exact .raise _
  · exact keeps_onlyOn steady_placeLinks

theorem onlyOn_ensureMgmtAnchor {plan : SchedulePlan} :
    Prog.Keeps (OnlyOn Q node) (ensureMgmtAnchor S clients host plan) := by
  refine .bind .get fun w => .ite (fun _ => .pure _) fun _ => .ite (fun _ => .raise _) fun _ => ?_
  refine .bind (keeps_onlyOn steady_remotely) fun _ => ?_
  refine .bind (keeps_onlyOn steady_remotely) fun _ => .bind (.modify fun _ h => h) fun _ => ?_
  exact .bind (keeps_onlyOn (steady_of_routine Calm.save)) fun _ => .pure _

theorem onlyOn_allocateNodeWebui : Prog.Keeps (OnlyOn Q node) (allocateNodeWebui S node) := by
  refine .bind .get fun w => ?_
  refine .bind (keeps_onlyOn (steady_of_routine routine_allocatePorts)) fun _ => ?_
  exact .when fun _ => .modify fun _ h => h

theorem onlyOn_dropAnchor : Prog.Keeps (OnlyOn Q node) (dropAnchor S clients host) := by
  refine .bind (keeps_onlyOn (steady_of_routine Calm.state')) fun st => ?_
  refine .bind (.modify fun _ h => h) fun _ => ?_
  split
  · exact .pure _
  · exact .bind (keeps_onlyOn steady_remotely) fun _ => .pure _

theorem onlyOn_rollbackAdd {before : DeploymentState} {l : AddLocals} {e : Err} :
    Prog.Keeps (OnlyOn Q node) (rollbackAdd S clients node before l e) := by
  refine .bind (.when fun _ => .bind (keeps_onlyOn steady_onLinks) fun _ => .modify fun w hw => ?_)
    fun _ => ?_
  · intro r hr
    rw [Dict.get?_erase, if_pos rfl] at hr
    cases hr
  refine .bind (.modify fun _ h => h) fun _ => ?_
  refine .bind (keeps_onlyOn (steady_of_routine routine_syncVxlanState)) fun _ => ?_
  refine .bind (.when fun _ => keeps_onlyOn (steady_of_works works_dropContainer)) fun _ => ?_
  refine .bind (.when fun _ => onlyOn_dropAnchor) fun _ => ?_
  refine .bind (.quietly (keeps_onlyOn (steady_of_routine routine_refreshSharedServices)))
    fun _ => ?_
  exact .bind (keeps_onlyOn (steady_of_routine Calm.save)) fun _ => .raise _

theorem onlyOn_handleAdd {before : DeploymentState} {l : AddLocals} {e : Err} :
    Prog.Keeps (OnlyOn Q node) (handleAdd S clients node before e l) := by
  refine .ite (fun _ => .when fun _ => keeps_onlyOn steady_cancelStartedNode) fun _ => ?_
  refine .bind (keeps_onlyOn (steady_of_routine routine_cancelled)) fun c => ?_
  exact .ite (fun _ => keeps_onlyOn steady_cancelStartedNode) fun _ => onlyOn_rollbackAdd

theorem registerNode_onlyOn {runtime : NodeRuntimeState} {reservations underlay : Dict String String}
    {plan : SchedulePlan} {requirement : VDResources} (hQ : Q runtime.host) :
    Prog.Keeps (OnlyOn Q node)
      (registerNode node runtime reservations plan underlay requirement : Ctl ρ Unit) := by
  intro w _ r hr
  have hget : ((w.state.nodeRuntime.set node runtime).modify node
      fun r => { r with state := .starting }).get? node = some r := hr
  rw [Dict.get?_modify, if_pos rfl, Dict.get?_set_self, Option.map_some] at hget
  rw [← Option.some.inj hget]
  exact hQ

theorem onlyOn_lift {α : Type} {p : Ctl ρ α} (h : Prog.Keeps (OnlyOn Q node) p) :
    Prog.Keeps (fun t : World ρ × AddLocals => OnlyOn Q node t.1) p.lift :=
  .lift fun _ => h

theorem onlyOn_setLocals {f : AddLocals → AddLocals} :
    Prog.Keeps (fun t : World ρ × AddLocals => OnlyOn Q node t.1)
      (.setLocals f : AddProg ρ Unit) :=
  .modify fun _ h => h

/-- The body of `add` records a device on the best host. -/
theorem addSteps_onlyOn {T : HostTable} {before : DeploymentState} {image : String}
    {reservations : Dict String String} :
    Prog.Triple (fun t => Awaiting before clients node image t.1)
      (addSteps (T.services S) clients node reservations)
      (fun _ t => OnlyOn (T.IsBest clients before image) node t.1)
      fun _ t => OnlyOn (T.IsBest clients before image) node t.1 := by
  refine .bind (Q := fun a t => OnlyOn (T.IsBest clients before image) node t.1 ∧
    T.IsBest clients before image a.1) ?_ fun ⟨host, requirement, underlay⟩ =>
      .of_and fun hbest => ?_
  · refine (Prog.Triple.lift choosePlace_spec fun _ => True).weaken (fun _ h => ⟨h, trivial⟩)
      (fun _ _ h => ⟨h.1.1.onlyOn, h.1.2⟩) fun _ _ h => h.1.onlyOn
  -- The host is chosen; until the node is registered, nothing is recorded of it.
  refine Prog.Keeps.iff_triple.1 (.bind onlyOn_setLocals fun _ => ?_)
  refine .bind (onlyOn_lift onlyOn_planPlace) fun plan => ?_
  refine .bind (onlyOn_lift onlyOn_ensureMgmtAnchor) fun _ => .bind onlyOn_setLocals fun _ => ?_
  refine .bind (onlyOn_lift onlyOn_allocateNodeWebui) fun _ => .bind (onlyOn_lift .get) fun w => ?_
  refine .bind (.ofExcept _) fun files => .bind onlyOn_setLocals fun _ => ?_
  refine .bind (.ofExcept _) fun content => ?_
  refine Prog.Keeps.iff_triple.2 (.bind (.ofExcept _) fun runtime => .of_and fun hr => ?_)
  have hhost : runtime.host = host := (newRuntime_eq_ok hr).2
  refine Prog.Keeps.iff_triple.1 (.bind (onlyOn_lift (registerNode_onlyOn (hhost ▸ hbest)))
    fun _ => .bind onlyOn_setLocals fun _ => ?_)
  refine .bind (onlyOn_lift (keeps_onlyOn (steady_of_works works_deployNode))) fun _ => ?_
  refine .bind (onlyOn_lift (keeps_onlyOn (steady_of_routine routine_rebuildLinks))) fun links => ?_
  refine .bind (onlyOn_lift (keeps_onlyOn steady_setLinks)) fun _ => ?_
  exact .bind onlyOn_setLocals fun _ => onlyOn_lift (keeps_onlyOn steady_activateNode)

/-- Adding a device that is not deployed. -/
theorem addNew_onlyOn {T : HostTable} {before : DeploymentState} {image : String} :
    Prog.Triple (Awaiting before clients node image) (addNew (T.services S) node)
      (fun _ => OnlyOn (T.IsBest clients before image) node)
      fun _ => OnlyOn (T.IsBest clients before image) node := by
  refine .bind (Q := fun _ => Awaiting before clients node image) (.get fun _ h => h) fun w => ?_
  refine .bind ((Prog.Triple.of_keeps (Prog.Keeps.ofExcept _)).onError fun _ _ => Awaiting.onlyOn)
    fun ⟨addresses, reservations⟩ => ?_
  refine .bind (Q := fun _ => Awaiting before clients node image) (.modify fun w' h => ?_) fun _ => ?_
  · refine ⟨h.notMem, h.runtime, fun vd hvd => ?_, h.hosts⟩
    have hget : (w'.topo.nodes.map fun name vd =>
        { vd with mgmtIpv4 := addresses.getD name vd.mgmtIpv4 }).get? node = some vd := hvd
    rw [Dict.get?_map, Option.map_eq_some_iff] at hget
    obtain ⟨vd', hvd', rfl⟩ := hget
    exact h.image vd' hvd'
  have hclients : Prog.Triple (Awaiting before clients node image) (createClients : Ctl ρ Clients)
      (fun c w' => Awaiting before clients node image w' ∧ c = clients)
      fun _ => OnlyOn (T.IsBest clients before image) node :=
    .bind (.bind (Q := fun w₀ w' => Awaiting before clients node image w' ∧
        w₀.topo.allHosts = clients) (.get fun _ h => ⟨h, h.hosts⟩) fun _ => .pure fun _ h => h)
      fun _ => .pure fun _ h => h
  refine .bind hclients fun _ => .of_and ?_
  rintro rfl
  refine .withLocals (fun _ t => OnlyOn (T.IsBest _ before image) node t.1) ?_ fun _ _ =>
    Prog.Keeps.iff_triple.1 onlyOn_handleAdd
  exact addSteps_onlyOn.weaken (fun _ h => h.1) (fun _ _ h => h) fun _ _ h => h

/-- A device that is added is recorded on the best host, however the addition ends. -/
theorem add_onlyOn {T : HostTable} {w : World ρ} {vd : VDNode}
    (hnew : node ∉ w.state.nodeRuntime.keys) (hvd : w.topo.nodes.get? node = some vd) :
    OnlyOn (T.IsBest w.topo.allHosts w.state vd.image) node ((add (T.services S) node).run w).2 := by
  have hstart : Awaiting w.state w.topo.allHosts node vd.image w :=
    ⟨hnew, rfl, fun vd' hvd' => by rw [Option.some.inj (hvd.symm.trans hvd')], rfl⟩
  have hcalm : ∀ {α : Type} {p : Ctl ρ α}, Routine node p →
      Prog.Triple (Awaiting w.state w.topo.allHosts node vd.image) p
        (fun _ => Awaiting w.state w.topo.allHosts node vd.image)
        fun _ => OnlyOn (T.IsBest w.topo.allHosts w.state vd.image) node :=
    fun h => (awaiting_of_routine h).onError fun _ _ => Awaiting.onlyOn
  refine Prog.Triple.run_both (P := Awaiting w.state w.topo.allHosts node vd.image) ?_ hstart
  refine .bind (hcalm routine_checkCancelled) fun _ => .bind (hcalm routine_ensureDeployed) fun _ => ?_
  refine .bind (hcalm routine_ensureHotAddSupported) fun _ => ?_
  refine .bind (Q := fun w' w'' => Awaiting w.state w.topo.allHosts node vd.image w'' ∧
    w'.state.nodeRuntime = w.state.nodeRuntime) (.get fun _ h => ⟨h, h.runtime⟩) fun w' =>
      .of_and fun hw' => ?_
  rw [hw', if_neg fun hc => hnew (Dict.contains_iff.1 hc)]
  exact .ite (fun _ => addNew_onlyOn) fun _ => .raise fun _ => Awaiting.onlyOn

end Place

/-! ## Where the overlay is -/

/-- A persistent device that last ran on `h`, where it still fits, is put there by `add` as it would
    be by a deployment, just if `h` has its image and every other host that could take it is a worse
    candidate. -/
theorem add_onOverlay_iff {ρ : Type} (S : Services ρ) (T : HostTable) (w : World ρ)
    (history : Dict String String) {node h : String} {vd : VDNode} {r : NodeRuntimeState}
    (hnew : node ∉ w.state.nodeRuntime.keys) (hvd : w.topo.nodes.get? node = some vd)
    (hlast : Persistence.oldHostOf history node vd = some h) (hknown : h ∈ w.topo.allHosts.keys)
    (hcpu : T.neededCpu ≤ T.cpu h) (hram : T.neededRam ≤ T.ramMb h)
    (hr : ((add (T.services S) node).run w).2.state.nodeRuntime.get? node = some r) :
    (r.host = h ∧ ∀ p, Scheduler.canFit p (T.demand node vd.image) h = true →
      Scheduler.bestHost (T.resources w.topo.allHosts)
        (Persistence.loadPlacementPreferences w.topo history) p (T.demand node vd.image) =
          some r.host) ↔
      vd.image ∈ T.images h ∧ ∀ g ∈ w.topo.allHosts.keys, g ≠ h → T.eligible vd.image g = true →
        (T.candidate w.state h).lt (T.candidate w.state g) = true := by
  have hbest : T.IsBest w.topo.allHosts w.state vd.image r.host := add_onlyOn hnew hvd r hr
  have hknown' : h ∈ (T.resources w.topo.allHosts).keys := by
    rwa [HostTable.resources, Dict.keys_map]
  constructor
  · rintro ⟨rfl, -⟩
    obtain ⟨⟨-, he⟩, hleast⟩ := HostTable.isBest_iff.1 hbest
    exact ⟨(HostTable.eligible_iff.1 he).1, hleast⟩
  · rintro ⟨himage, hleast⟩
    have hbest' : T.IsBest w.topo.allHosts w.state vd.image h :=
      HostTable.isBest_iff.2 ⟨⟨hknown, HostTable.eligible_iff.2 ⟨himage, hcpu, hram⟩⟩, hleast⟩
    obtain rfl := hbest.unique hbest'
    exact ⟨rfl, fun p hfit => Persistence.bestHost_of_history hvd hlast hknown' hfit⟩

/-! ### A lab with two workers -/

/-- A lab in which one device runs, and a persistent one is to be added. -/
def branchTopo : DistributedTopology where
  name := "branch"
  master := { name := "master", host := "10.0.0.1", isMaster := true }
  workers := .ofList [
    ("w1", { name := "w1", host := "10.0.0.2" }), ("w2", { name := "w2", host := "10.0.0.3" })]
  underlayIface := "eth0"
  nodes := .ofList [
    ("r1", { name := "r1", kind := "linux", image := "vrouter:1-dnlab", mgmtIpv4 := "172.20.0.11" }),
    ("r2", { name := "r2", kind := "linux", image := "alpine:3", mgmtIpv4 := "172.20.0.12" })]
  links := []
  mgmt :=
    { network := "mgmt", bridge := "br-mgmt", ipv4Subnet := "172.20.0.0/24"
      ipv4Gw := "172.20.0.1" }

/-- The device `r2` runs on `host`. -/
def branchLab (host : String) : World Unit :=
  let st : DeploymentState :=
    { labName := "branch"
      topologyFile := "branch.yml"
      deployedAt := ""
      dnlabDeployed := true
      runtimeMode := "per-vd"
      nodeRuntime := .ofList [("r2",
        { node := "r2", state := .running, host := host
          container := "clab-dnlab-branch-r2-r2", topologyFile := "r2.yml", kind := "linux"
          image := "alpine:3", mgmtIpv4 := "172.20.0.12", warmPorts := 0
          hotLinksStatus := .unsupported })] }
  { topo := branchTopo, state := st, saved := st, remote := ⟨(), []⟩ }

/-- Every host has the images, and room for the device. -/
def roomyTable : HostTable where
  cpu _ := 8
  ramMb _ := 16384
  images _ := ["vrouter:1-dnlab", "alpine:3"]
  neededCpu := 1
  neededRam := 256

/-- The persistent device of the lab. -/
def branchRouter : VDNode :=
  { name := "r1", kind := "linux", image := "vrouter:1-dnlab", mgmtIpv4 := "172.20.0.11" }

theorem get?_branchRouter : branchTopo.nodes.get? "r1" = some branchRouter := rfl

/-- The device `r1` last ran on `w1`. -/
def branchHistory : Dict String String := .ofList [("r1", "w1")]

theorem host_branchLab (host : String) (h : host ∈ ["w1", "w2"]) :
    (((add (roomyTable.services Deploy.quietServices.toServices) "r1").run
      (branchLab host)).2.state.nodeRuntime.get? "r1").map (·.host) =
      some (if host = "w1" then "w2" else "w1") := by
  rcases List.mem_pair.1 h with rfl | rfl <;> decide +kernel

/-- With the other device on the other worker, the new one goes to its overlay. -/
theorem add_onOverlay_branch : ∃ r : NodeRuntimeState, r.host = "w1" ∧
    ∀ p, Scheduler.canFit p (roomyTable.demand "r1" "vrouter:1-dnlab") "w1" = true →
      Scheduler.bestHost (roomyTable.resources branchTopo.allHosts)
        (Persistence.loadPlacementPreferences branchTopo branchHistory) p
        (roomyTable.demand "r1" "vrouter:1-dnlab") = some r.host := by
  obtain ⟨r, hr, -⟩ := Option.map_eq_some_iff.1 (host_branchLab "w2" (by decide))
  have hiff := add_onOverlay_iff (h := "w1") Deploy.quietServices.toServices roomyTable
    (branchLab "w2") branchHistory (by decide) get?_branchRouter (by decide +kernel) (by decide)
    (by decide) (by decide) hr
  exact ⟨r, hiff.2 ⟨by decide, by decide +kernel⟩⟩

/-- Another device on the host of the overlay drives the new one away from it. -/
theorem not_onOverlay_branch : ¬∀ (S : Services Unit) (T : HostTable) (w : World Unit)
    (history : Dict String String) (node h : String) (vd : VDNode) (r : NodeRuntimeState),
    node ∉ w.state.nodeRuntime.keys → w.topo.nodes.get? node = some vd →
    Generator.needsPersistBind vd.image = true →
    Persistence.oldHostOf history node vd = some h → h ∈ w.topo.allHosts.keys →
    T.neededCpu ≤ T.cpu h → T.neededRam ≤ T.ramMb h →
    ((add (T.services S) node).run w).2.state.nodeRuntime.get? node = some r → r.host = h := by
  intro hall
  obtain ⟨r, hr, hhost⟩ := Option.map_eq_some_iff.1 (host_branchLab "w1" (by decide))
  have hw1 := hall Deploy.quietServices.toServices roomyTable (branchLab "w1") branchHistory "r1"
    "w1" branchRouter r (by decide) get?_branchRouter (by decide +kernel) (by decide +kernel) (by decide)
    (by decide) (by decide) hr
  rw [hw1] at hhost
  exact absurd hhost (by decide)

end Dnlab.Node
