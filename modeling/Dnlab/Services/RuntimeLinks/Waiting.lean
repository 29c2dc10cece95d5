import Dnlab.Lib.Outcome
import Dnlab.Services.Remote.Frame

/-!
# Links that wait for their devices

A reconciliation goes through the links in order and stops at the first one
that cannot be created (`Visits`). A link with a device that is not running is
only marked (`createLink_of_waiting`), but an empty set of running devices is
taken for no set at all, and then for the devices of the link itself. Whether a
link is then created, or refused before the first command, depends on the
clients and addresses that are known (`Commanded`), so it can be said exactly
when a reconciliation waits for both ends on all hosts (`waits_iff`).
-/

namespace Dnlab.RuntimeLinks

variable {ρ : Type}

/-- A device of the link is not among the running ones. -/
def Waiting (running : List String) (l : RuntimeLinkState) : Prop :=
  ∃ n ∈ nodesInLink l, n ∉ running

/-- A link that was visited: what was made of it, with the hosts before and after. -/
structure Visit (ρ : Type) where
  link : RuntimeLinkState
  before : Remote ρ
  result : RuntimeLinkState
  error : Option Err
  after : Remote ρ

section Visits

variable (p : RuntimeLinkState → Bool)
  (step : RuntimeLinkState → Prog (Remote ρ) Err (RuntimeLinkState × Option Err))

/-- The runs of `visitLinks` with the links that they visit, and how they end. -/
inductive Visits : List RuntimeLinkState → Remote ρ → List (Visit ρ) →
    List RuntimeLinkState × Option Err → Remote ρ → Prop
  | nil {r : Remote ρ} : Visits [] r [] ([], none) r
  | skip {l : RuntimeLinkState} {rest rest' : List RuntimeLinkState} {r r' : Remote ρ}
    {vs : List (Visit ρ)} {err : Option Err} (hp : p l = false)
    (hrest : Visits rest r vs (rest', err) r') : Visits (l :: rest) r vs (l :: rest', err) r'
  | done {l l' : RuntimeLinkState} {rest rest' : List RuntimeLinkState} {r r₁ r' : Remote ρ}
    {vs : List (Visit ρ)} {err : Option Err} (hp : p l = true)
    (hstep : (step l).run r = (.ok (l', none), r₁)) (hrest : Visits rest r₁ vs (rest', err) r') :
    Visits (l :: rest) r (⟨l, r, l', none, r₁⟩ :: vs) (l' :: rest', err) r'
  | failed {l l' : RuntimeLinkState} {rest : List RuntimeLinkState} {r r₁ : Remote ρ} {e : Err}
    (hp : p l = true) (hstep : (step l).run r = (.ok (l', some e), r₁)) :
    Visits (l :: rest) r [⟨l, r, l', some e, r₁⟩] (l' :: rest, some e) r₁

variable {p step}

/-- Steps that raise nothing themselves make a run with its visits. -/
theorem exists_visits (hstep : ∀ l, (step l).Succeeds) (links : List RuntimeLinkState)
    (r : Remote ρ) :
    ∃ vs out r', (visitLinks p step links).run r = (.ok out, r') ∧ Visits p step links r vs out r' := by
  induction links generalizing r with
  | nil => exact ⟨[], ([], none), r, rfl, .nil⟩
  | cons l rest ih =>
    rw [visitLinks]
    cases hp : p l with
    | false =>
      obtain ⟨vs, ⟨rest', err⟩, r', hrun, hvs⟩ := ih r
      exact ⟨vs, (l :: rest', err), r', by rw [if_neg (by decide), Prog.run_bind_ok hrun]; rfl,
        .skip hp hvs⟩
    | true =>
      obtain ⟨⟨l', err⟩, r₁, h₁⟩ := hstep l r
      rw [if_pos rfl, Prog.run_bind_ok h₁]
      rcases err with _ | e
      · obtain ⟨vs, ⟨rest', err⟩, r', hrun, hvs⟩ := ih r₁
        exact ⟨_, (l' :: rest', err), r', Prog.run_bind_ok hrun, .done hp h₁ hvs⟩
      · exact ⟨_, (l' :: rest, some e), r₁, rfl, .failed hp h₁⟩

/-- What was made of a link that was visited is what the step made of it. -/
theorem Visits.step_run {links : List RuntimeLinkState} {r r' : Remote ρ} {vs : List (Visit ρ)}
    {out : List RuntimeLinkState × Option Err} (h : Visits p step links r vs out r') {v : Visit ρ}
    (hv : v ∈ vs) : (step v.link).run v.before = (.ok (v.result, v.error), v.after) := by
  induction h with
  | nil => exact absurd hv List.not_mem_nil
  | skip _ _ ih => exact ih hv
  | done _ hstep _ ih =>
    rcases List.mem_cons.1 hv with rfl | hv
    · exact hstep
    · exact ih hv
  | failed _ hstep =>
    obtain rfl := List.mem_singleton.1 hv
    exact hstep

/-- If no step ends with an exception, all links that satisfy `p` are visited. -/
theorem Visits.exists_visit {links : List RuntimeLinkState} {r r' : Remote ρ} {vs : List (Visit ρ)}
    {out : List RuntimeLinkState × Option Err} (h : Visits p step links r vs out r')
    (herr : ∀ v ∈ vs, v.error = none) {l : RuntimeLinkState} (hl : l ∈ links) (hp : p l = true) :
    ∃ v ∈ vs, v.link = l := by
  induction h with
  | nil => exact absurd hl List.not_mem_nil
  | skip hskip _ ih =>
    rcases List.mem_cons.1 hl with rfl | hl
    · rw [hp] at hskip
      cases hskip
    · exact ih herr hl
  | done _ _ _ ih =>
    rcases List.mem_cons.1 hl with rfl | hl
    · exact ⟨_, List.mem_cons_self, rfl⟩
    · obtain ⟨v, hv, heq⟩ := ih (fun v hv => herr v (List.mem_cons_of_mem _ hv)) hl
      exact ⟨v, List.mem_cons_of_mem _ hv, heq⟩
  | failed _ _ => exact absurd (herr _ List.mem_cons_self) nofun

end Visits

/-! ## One link -/

section Step

variable {B : Backend ρ} {clients : Clients} {underlay : Dict String String} {running : List String}
  {defer : Bool} {l : RuntimeLinkState}

theorem stoppedEndpoints_ne_nil : stoppedEndpoints l running ≠ [] ↔ Waiting running l := by
  rw [stoppedEndpoints, Ne, List.filter_eq_nil_iff, Waiting]
  simp

theorem waiting_nil : Waiting [] l ↔ nodesInLink l ≠ [] := by
  rw [Waiting]
  simp [List.eq_nil_iff_forall_not_mem]

variable (B clients underlay running defer l)

/-- A link with a device that is not among some running ones is marked, and nothing else. -/
theorem createLink_of_waiting (hrunning : running ≠ []) (h : Waiting running l) (r : Remote ρ) :
    ∃ l', (createLink B clients underlay running defer l).run r = (.ok (l', none), r) ∧
      l'.state = .partly := by
  rw [createLink, if_neg hrunning, if_pos (stoppedEndpoints_ne_nil.2 h)]
  exact ⟨_, rfl, rfl⟩

/-- A link that need not wait is created, as is any link if the set is empty: it ends as the
    commands of its type do. -/
theorem createLink_of_ready (h : running = [] ∨ ¬Waiting running l) (r : Remote ρ) :
    match (createByType B clients l underlay defer).run r with
    | (.ok (), r') => ∃ l', (createLink B clients underlay running defer l).run r =
        (.ok (l', none), { r' with log := .created l :: r'.log }) ∧ l'.state = .up
    | (.error e, r') => ∃ l', (createLink B clients underlay running defer l).run r =
        (.ok (l', some e), r') ∧ l'.state = .error := by
  have hmissing : ¬stoppedEndpoints l (if running = [] then nodesInLink l else running) ≠ [] := by
    rw [stoppedEndpoints_ne_nil]
    rcases h with rfl | h
    · rw [if_pos rfl]
      exact fun ⟨n, hn, hnot⟩ => hnot hn
    · split
      · exact fun ⟨n, hn, hnot⟩ => hnot hn
      · exact h
  rw [createLink]
  simp only [if_neg hmissing]
  rcases hrun : (createByType B clients l underlay defer).run r with ⟨e | u, r'⟩
  · have hattempt : (createByType B clients l underlay defer).attempt.run r = (.ok (.error e), r') := by
      rw [Prog.run_attempt, hrun]
    exact ⟨_, Prog.run_bind_ok hattempt, rfl⟩
  · have hattempt : (createByType B clients l underlay defer).attempt.run r = (.ok (.ok u), r') := by
      rw [Prog.run_attempt, hrun]
    exact ⟨_, Prog.run_bind_ok hattempt, rfl⟩

theorem succeeds_createLink : (createLink B clients underlay running defer l).Succeeds := by
  intro r
  by_cases h : running = [] ∨ ¬Waiting running l
  · have hready := createLink_of_ready B clients underlay running defer l h r
    rcases hrun : (createByType B clients l underlay defer).run r with ⟨e | u, r'⟩ <;>
      rw [hrun] at hready
    · obtain ⟨l', hl', _⟩ := hready
      exact ⟨_, _, hl'⟩
    · obtain ⟨l', hl', _⟩ := hready
      exact ⟨_, _, hl'⟩
  · rw [not_or, not_not] at h
    obtain ⟨l', hl', _⟩ := createLink_of_waiting B clients underlay running defer l h.1 h.2 r
    exact ⟨_, _, hl'⟩

end Step

/-! ## Whether a link can be created -/

/-- The carrier of a side is not set for any command: its port is warm, and the name of the
    container or of the interface is refused. -/
def Unsafe (s : Side) : Prop :=
  s.warm = true ∧ (isSafeContainer s.container = false ∨ WarmLinks.ifaceIndex (s.endpoint.iface.getD "") = 0)

instance (s : Side) : Decidable (Unsafe s) := inferInstanceAs (Decidable (_ ∧ _))

/-- The carrier of a side can be set up. -/
def CarrierReady (clients : Clients) (s : Side) : Prop :=
  ¬Unsafe s ∧ (s.warm = true → (clients.get? s.host).isSome)

/-- A link can be created, if the hosts do as they are told. -/
def Creatable (clients : Clients) (underlay : Dict String String) (l : RuntimeLinkState) : Prop :=
  CarrierReady clients (sideA l) ∧ CarrierReady clients (sideB l) ∧
    match l.linkType with
    | .sameHost | .realNet => (clients.get? l.hostA).isSome
    | .crossHost => (clients.get? l.hostA).isSome ∧ (clients.get? l.hostB).isSome ∧
      (underlay.get? l.hostA).isSome ∧ (underlay.get? l.hostB).isSome
    | .pending => False

/-- The creation of a link comes to a command, be it only one that takes back what was not yet done. -/
def Commanded (clients : Clients) (underlay : Dict String String) (l : RuntimeLinkState) : Prop :=
  match l.linkType with
  | .sameHost | .realNet => (clients.get? l.hostA).isSome
  | .crossHost => (clients.get? l.hostA).isSome ∧ (clients.get? l.hostB).isSome ∧
    ((underlay.get? l.hostB).isSome ∨
      ¬Unsafe (sideA l) ∧ (l.warmA = true ∨ ¬Unsafe (sideB l)))
  | .pending => False

section Failing

variable {B : Backend ρ} {clients : Clients} {underlay : Dict String String} {defer : Bool}
  {l : RuntimeLinkState} {host : String} {cmd : Cmd} {check : Bool} {s : Side}

open Prog (Rejects Fails)

theorem rejects_run (h : ¬(clients.get? host).isSome) : (clients.run B host cmd check).Rejects := by
  rw [Clients.run, Option.not_isSome_iff_eq_none.1 h]
  exact .raise _

theorem rejects_requireClient (h : ¬(clients.get? host).isSome) :
    (requireClient clients host : Prog (Remote ρ) Err Unit).Rejects := by
  rw [requireClient, Option.not_isSome_iff_eq_none.1 h]
  exact .raise _

theorem run_requireClient (h : (clients.get? host).isSome) (r : Remote ρ) :
    (requireClient clients host).run r = (.ok (), r) := by
  obtain ⟨c, hc⟩ := Option.isSome_iff_exists.1 h
  rw [requireClient, hc]
  rfl

theorem rejects_underlayIp (h : ¬(underlay.get? host).isSome) :
    (Prog.ofExcept (underlayIp underlay host) : Prog (Remote ρ) Err String).Rejects := by
  rw [underlayIp, Option.not_isSome_iff_eq_none.1 h]
  exact .raise _

theorem rejects_setCarrier {up : Bool} (h : Unsafe s) :
    (setCarrier B clients up check defer s).Rejects := by
  have hunsafe : (!isSafeContainer s.container) = true ∨
      WarmLinks.ifaceIndex (s.endpoint.iface.getD "") = 0 := h.2.imp_left (by simp [·])
  rw [setCarrier, if_neg (by simp [h.1]), if_pos hunsafe]
  exact .raise _

theorem run_setCarrier_of_cold {up : Bool} (h : ¬s.warm = true) (r : Remote ρ) :
    (setCarrier B clients up check defer s).run r = (.ok (), r) := by
  rw [setCarrier, if_pos (by simpa using h)]
  rfl

theorem rejects_setLinkCarriers {up : Bool}
    (h : Unsafe (sideA l) ∨ ¬l.warmA = true ∧ Unsafe (sideB l)) :
    (setLinkCarriers B clients l up check defer).Rejects := by
  rcases h with h | ⟨hcold, h⟩
  · exact .bind (rejects_setCarrier h) _
  · exact .bind_right (run_setCarrier_of_cold (s := sideA l) hcold) (rejects_setCarrier h)

theorem fails_setCarrier (h : ¬CarrierReady clients s) :
    (setCarrier B clients true true defer s).Fails := by
  by_cases hunsafe : Unsafe s
  · exact (rejects_setCarrier hunsafe).fails
  · -- the host of the side is not known
    rw [CarrierReady, not_and, Classical.not_imp] at h
    obtain ⟨hwarm, hclient⟩ := h hunsafe
    have hsafe : ¬((!isSafeContainer s.container) = true ∨
        WarmLinks.ifaceIndex (s.endpoint.iface.getD "") = 0) := fun hor =>
      hunsafe ⟨hwarm, hor.imp_left (by simp)⟩
    rw [setCarrier, if_neg (by simp [hwarm]), if_neg hsafe,
      if_pos (by simpa using hclient), if_pos rfl]
    exact .raise _

variable (B defer)

theorem fails_setLinkCarriers
    (h : ¬(CarrierReady clients (sideA l) ∧ CarrierReady clients (sideB l))) :
    (setLinkCarriers B clients l true true defer).Fails := by
  by_cases hA : CarrierReady clients (sideA l)
  · exact .bind_right _ fun _ => fails_setCarrier fun hB => h ⟨hA, hB⟩
  · exact .bind_left (fails_setCarrier hA) _

/-- Without the clients, addresses and names that it needs, a link is not created on any hosts. -/
theorem fails_createByType (h : ¬Creatable clients underlay l) :
    (createByType B clients l underlay defer).Fails := by
  have hcarriers (hC : ¬(CarrierReady clients (sideA l) ∧ CarrierReady clients (sideB l))) :=
    fails_setLinkCarriers B defer hC
  rw [Creatable, ← and_assoc, not_and_or] at h
  rw [createByType]
  split <;> rename_i htype <;> simp only [htype] at h
  · rcases h with h | h
    · refine .bind_right _ fun _ => .bind_right _ fun _ => .bind_right _ fun _ => .rescue ?_ fun e => ?_
      · exact .bind_right _ fun _ => .bind_right _ fun _ => hcarriers h
      · exact .bind_right _ fun _ => .bind_right _ fun _ => .bind_right _ fun _ => .raise e
    · exact .bind_left (rejects_run h).fails _
  · by_cases hA : (clients.get? l.hostA).isSome
    swap
    · exact .bind_left (rejects_requireClient hA).fails _
    by_cases hB : (clients.get? l.hostB).isSome
    swap
    · exact .bind_right _ fun _ => .bind_left (rejects_requireClient hB).fails _
    refine .bind_right _ fun _ => .bind_right _ fun _ => .rescue ?_ fun e =>
      .bind_right _ fun _ => .bind_right _ fun _ => .raise e
    by_cases hipB : (underlay.get? l.hostB).isSome
    swap
    · exact .bind_left (.bind_left (rejects_underlayIp hipB).fails _) _
    by_cases hipA : (underlay.get? l.hostA).isSome
    swap
    · exact .bind_right _ fun _ => .bind_left (.bind_left (rejects_underlayIp hipA).fails _) _
    · refine .bind_right _ fun _ => .bind_right _ fun _ => hcarriers ?_
      exact h.resolve_right fun hnot => hnot ⟨hA, hB, hipA, hipB⟩
  · rcases h with h | h
    · refine .bind_right _ fun _ => .rescue ?_ fun e => ?_
      · exact .bind_right _ fun _ => .bind_right _ fun _ => hcarriers h
      · exact .bind_right _ fun _ => .bind_right _ fun _ => .raise e
    · exact .bind_left (rejects_run h).fails _
  · exact .raise _

/-- A link that does not come to a command is refused. -/
theorem rejects_createByType (h : ¬Commanded clients underlay l) :
    (createByType B clients l underlay defer).Rejects := by
  rw [Commanded] at h
  rw [createByType]
  split <;> rename_i htype <;> simp only [htype] at h
  · exact .bind (rejects_run h) _
  · by_cases hA : (clients.get? l.hostA).isSome
    swap
    · exact .bind (rejects_requireClient hA) _
    by_cases hB : (clients.get? l.hostB).isSome
    swap
    · exact .bind_right (run_requireClient hA) (.bind (rejects_requireClient hB) _)
    have hnot : ¬((underlay.get? l.hostB).isSome ∨
        ¬Unsafe (sideA l) ∧ (l.warmA = true ∨ ¬Unsafe (sideB l))) := fun hor => h ⟨hA, hB, hor⟩
    rw [not_or, not_and_or, not_not, not_or, not_not] at hnot
    -- neither the first tunnel end nor the handler comes to a command
    refine .bind_right (run_requireClient hA) (.bind_right (run_requireClient hB) (.rescue ?_ ?_))
    · exact .bind (.bind (rejects_underlayIp hnot.1) _) _
    · exact fun e => .bind (rejects_setLinkCarriers hnot.2) _
  · exact .bind (rejects_run h) _
  · exact .raise _

end Failing

section Growing

variable {α β : Type} {B : Backend ρ} {clients : Clients} {underlay : Dict String String}
  {defer : Bool} {l : RuntimeLinkState} {host : String} {cmd : Cmd} {check : Bool} {s : Side}

/-- Something is recorded, however `p` ends. -/
def Records (p : Prog (Remote ρ) Err α) : Prop := ∀ r, r.log.length < (p.run r).2.log.length

/-- No command takes anything out of the log. -/
theorem untouched_length (B : Backend ρ) (n : ℕ) : Untouched B fun r => n ≤ r.log.length where
  runNoCheck _ _ _ h := Nat.le_succ_of_le h
  note _ _ h := Nat.le_succ_of_le h

theorem Records.bind_left {p : Prog (Remote ρ) Err β} (hp : Records p)
    {f : β → Prog (Remote ρ) Err α} (hf : ∀ b n, Prog.Keeps (fun r => n ≤ r.log.length) (f b)) :
    Records (p >>= f) := by
  intro r
  have hlt := hp r
  rcases h : p.run r with ⟨e | b, r₁⟩ <;> rw [h] at hlt
  · rwa [Prog.run_bind_error h]
  · rw [Prog.run_bind_ok h]
    exact hf b _ r₁ hlt

theorem Records.bind_right {p : Prog (Remote ρ) Err β} {b : β} (hp : ∀ r, p.run r = (.ok b, r))
    {f : β → Prog (Remote ρ) Err α} (hf : Records (f b)) : Records (p >>= f) := by
  intro r
  rw [Prog.run_bind_ok (hp r)]
  exact hf r

theorem Records.rescue {p : Prog (Remote ρ) Err α} (hp : Records p)
    {h : Err → Prog (Remote ρ) Err α} (hh : ∀ e n, Prog.Keeps (fun r => n ≤ r.log.length) (h e)) :
    Records (p.rescue h) := by
  intro r
  have hlt := hp r
  rcases hrun : p.run r with ⟨e | a, r₁⟩ <;> rw [hrun] at hlt <;> rw [Prog.run_rescue, hrun]
  · exact hh e _ r₁ hlt
  · exact hlt

theorem Records.rescue_of_rejects {p : Prog (Remote ρ) Err α} (hp : p.Rejects)
    {h : Err → Prog (Remote ρ) Err α} (hh : ∀ e, Records (h e)) : Records (p.rescue h) := by
  intro r
  obtain ⟨e, hrun⟩ := hp r
  rw [Prog.run_rescue, hrun]
  exact hh e r

theorem records_remoteRun {address : String} : Records (Remote.run B host address cmd check) :=
  .bind_left (fun _ => Nat.lt_succ_self _) fun _ _ => .ite (fun _ => .raise _) fun _ => .pure _

theorem records_run (h : (clients.get? host).isSome) : Records (clients.run B host cmd check) := by
  obtain ⟨c, hc⟩ := Option.isSome_iff_exists.1 h
  rw [Clients.run, hc]
  exact records_remoteRun

theorem records_runIfPresent (h : (clients.get? host).isSome) :
    Records (clients.runIfPresent B host cmd) := by
  obtain ⟨c, hc⟩ := Option.isSome_iff_exists.1 h
  rw [Clients.runIfPresent, hc]
  exact .bind_left records_remoteRun fun _ _ => .pure _

/-- The carrier of a warm port is set down with a command. -/
theorem records_setCarrier_down (hwarm : s.warm = true) (hsafe : ¬Unsafe s)
    (h : (clients.get? s.host).isSome) : Records (setCarrier B clients false false false s) := by
  have hsafe : ¬((!isSafeContainer s.container) = true ∨
      WarmLinks.ifaceIndex (s.endpoint.iface.getD "") = 0) := fun hor =>
    hsafe ⟨hwarm, hor.imp_left (by simp)⟩
  have hclient : ¬(clients.get? s.host).isNone = true := by
    rw [Option.isNone_iff_eq_none, ← Option.not_isSome_iff_eq_none, not_not]
    exact h
  rw [setCarrier, if_neg (by simp [hwarm]), if_neg hsafe, if_neg hclient, if_neg (by decide),
    if_pos (by decide)]
  exact .bind_left (records_run h) fun _ _ => .pure _

/-- What takes back a link between hosts comes to a command, unless a carrier cannot be named. -/
theorem records_undoCrossHost (hA : (clients.get? l.hostA).isSome)
    (hB : (clients.get? l.hostB).isSome) (hUA : ¬Unsafe (sideA l))
    (hUB : l.warmA = true ∨ ¬Unsafe (sideB l)) (e : Err) : Records (do
      setLinkCarriers B clients l false false false
      deleteCrossHostNetwork B clients l
      .raise e : Prog (Remote ρ) Err Unit) := by
  have hkeeps (n : ℕ) := untouched_length B n
  have hdelete (n : ℕ) : Prog.Keeps (fun r => n ≤ r.log.length) (do
      deleteCrossHostNetwork B clients l
      .raise e : Prog (Remote ρ) Err Unit) :=
    .bind (keeps_deleteCrossHostNetwork (hkeeps n)) fun _ => .raise e
  by_cases hwarmA : (sideA l).warm = true
  · exact .bind_left (.bind_left (records_setCarrier_down hwarmA hUA hA) fun _ n =>
      keeps_setCarrier (hkeeps n)) fun _ => hdelete
  have hUB : ¬Unsafe (sideB l) := hUB.resolve_left hwarmA
  by_cases hwarmB : (sideB l).warm = true
  · exact .bind_left (.bind_right (run_setCarrier_of_cold hwarmA)
      (records_setCarrier_down hwarmB hUB hB)) fun _ => hdelete
  · have hcarriers (r : Remote ρ) :
        (setLinkCarriers B clients l false false false).run r = (.ok (), r) := by
      rw [setLinkCarriers, Prog.run_bind_ok (run_setCarrier_of_cold hwarmA r)]
      exact run_setCarrier_of_cold hwarmB r
    refine .bind_right hcarriers (.bind_left (.bind_left (records_runIfPresent hA) fun _ n =>
      (hkeeps n).runIfPresent) fun _ _ => .raise e)

variable (B defer) in
/-- A link that comes to a command leaves something in the log, on any hosts. -/
theorem records_createByType (h : Commanded clients underlay l) :
    Records (createByType B clients l underlay defer) := by
  have hkeeps (n : ℕ) := untouched_length B n
  rw [Commanded] at h
  rw [createByType]
  split <;> rename_i htype <;> simp only [htype] at h
  · refine .bind_left (records_run h) fun _ n => .bind (hkeeps n).run fun _ =>
      .bind (hkeeps n).run fun _ => .rescue ?_ fun e => ?_
    · exact .bind (keeps_attachSide (hkeeps n)) fun _ => .bind (keeps_attachSide (hkeeps n)) fun _ =>
        keeps_setLinkCarriers (hkeeps n)
    · exact .bind (keeps_setLinkCarriers (hkeeps n)) fun _ => .bind (hkeeps n).run fun _ =>
        .bind (hkeeps n).run fun _ => .raise e
  · obtain ⟨hA, hB, h⟩ := h
    refine .bind_right (run_requireClient hA) (.bind_right (run_requireClient hB) ?_)
    by_cases hip : (underlay.get? l.hostB).isSome
    · obtain ⟨ip, hip⟩ := Option.isSome_iff_exists.1 hip
      have hfirst : Records (createTunnelEnd B clients underlay l (sideA l) l.hostB) := by
        rw [createTunnelEnd, underlayIp, hip]
        exact .bind_right (fun _ => rfl) (.bind_left (records_run hA) fun _ n => (hkeeps n).note _)
      refine .rescue (.bind_left hfirst fun _ n => .bind (keeps_createTunnelEnd (hkeeps n)) fun _ =>
        keeps_setLinkCarriers (hkeeps n)) fun e n => ?_
      exact .bind (keeps_setLinkCarriers (hkeeps n)) fun _ =>
        .bind (keeps_deleteCrossHostNetwork (hkeeps n)) fun _ => .raise e
    · obtain ⟨hUA, hUB⟩ := h.resolve_left hip
      exact .rescue_of_rejects (.bind (.bind (rejects_underlayIp hip) _) _) fun e =>
        records_undoCrossHost hA hB hUA hUB e
  · refine .bind_left (records_run h) fun _ n => .rescue ?_ fun e => ?_
    · exact .bind (hkeeps n).run fun _ => .bind ((hkeeps n).note _) fun _ =>
        keeps_setLinkCarriers (hkeeps n)
    · exact .bind (keeps_setLinkCarriers (hkeeps n)) fun _ => .bind (hkeeps n).run fun _ => .raise e

end Growing

/-! ### Hosts that do as they are told -/

/-- Every command succeeds. -/
def agreeable : Backend Unit where
  exec _ _ r := (.ok ⟨0, "", ""⟩, r)
  cancelled r := (false, r)
  patience _ := 0
  now _ := "2024-01-01T00:00:00"

section Succeeding

variable {clients : Clients} {underlay : Dict String String} {defer : Bool} {l : RuntimeLinkState}
  {host : String} {cmd : Cmd} {check : Bool} {s : Side}

theorem succeeds_run (h : (clients.get? host).isSome) :
    (clients.run agreeable host cmd check).Succeeds := by
  obtain ⟨c, hc⟩ := Option.isSome_iff_exists.1 h
  rw [Clients.run, hc]
  exact fun r => ⟨_, _, rfl⟩

theorem succeeds_note (e : Event) : (Remote.note e : Prog (Remote Unit) Err Unit).Succeeds :=
  fun _ => ⟨_, _, rfl⟩

theorem succeeds_setCarrier (h : CarrierReady clients s) :
    (setCarrier agreeable clients true true defer s).Succeeds := by
  by_cases hwarm : s.warm = true
  swap
  · exact fun r => ⟨_, _, run_setCarrier_of_cold hwarm r⟩
  have hsafe : ¬((!isSafeContainer s.container) = true ∨
      WarmLinks.ifaceIndex (s.endpoint.iface.getD "") = 0) := fun hor =>
    h.1 ⟨hwarm, hor.imp_left (by simp)⟩
  have hclient : ¬(clients.get? s.host).isNone = true := by
    rw [Option.isNone_iff_eq_none, ← Option.not_isSome_iff_eq_none, not_not]
    exact h.2 hwarm
  rw [setCarrier, if_neg (by simp [hwarm]), if_neg hsafe, if_neg hclient]
  split
  · exact .bind (succeeds_run (h.2 hwarm)) fun _ => .pure _
  · rw [if_neg (by decide)]
    exact .bind (fun r => ⟨0, r, rfl⟩) fun n => by
      induction n with
      | zero => exact .bind (succeeds_run (h.2 hwarm)) fun _ => .pure _
      | succ n _ => exact .rescue (.bind (succeeds_run (h.2 hwarm)) fun _ => .pure _) _

variable (defer) in
/-- A link that can be created is created by such hosts. -/
theorem succeeds_createByType (h : Creatable clients underlay l) :
    (createByType agreeable clients l underlay defer).Succeeds := by
  obtain ⟨hcA, hcB, h⟩ := h
  have hcarriers : (setLinkCarriers agreeable clients l true true defer).Succeeds :=
    .bind (succeeds_setCarrier hcA) fun _ => succeeds_setCarrier hcB
  rw [createByType]
  split <;> rename_i htype <;> simp only [htype] at h
  · have hattach (s : Side) :
        (attachSide agreeable clients l.hostA (runtimeBridgeName l) s).Succeeds :=
      .bind (succeeds_run h) fun _ => .bind (succeeds_run h) fun _ => succeeds_note _
    exact .bind (succeeds_run h) fun _ => .bind (succeeds_run h) fun _ =>
      .bind (succeeds_run h) fun _ =>
      .rescue (.bind (hattach _) fun _ => .bind (hattach _) fun _ => hcarriers) _
  · obtain ⟨hA, hB, hipA, hipB⟩ := h
    have hend {s : Side} {peer : String} (hs : (clients.get? s.host).isSome)
        (hip : (underlay.get? peer).isSome) :
        (createTunnelEnd agreeable clients underlay l s peer).Succeeds := by
      obtain ⟨ip, hip⟩ := Option.isSome_iff_exists.1 hip
      rw [createTunnelEnd, underlayIp, hip]
      exact .bind (.pure ip) fun _ => .bind (succeeds_run hs) fun _ => succeeds_note _
    exact .bind (fun r => ⟨_, _, run_requireClient hA r⟩) fun _ =>
      .bind (fun r => ⟨_, _, run_requireClient hB r⟩) fun _ =>
      .rescue (.bind (hend hA hipB) fun _ => .bind (hend hB hipA) fun _ => hcarriers) _
  · exact .bind (succeeds_run h) fun _ =>
      .rescue (.bind (succeeds_run h) fun _ => .bind (succeeds_note _) fun _ => hcarriers) _

end Succeeding

/-! ## A reconciliation -/

/-- `reconcile_all_links`, or `reconcile_node_links` for a device. -/
def reconcileLinks (B : Backend ρ) (clients : Clients) (underlay : Dict String String)
    (running : List String) (defer : Bool) (node : Option String) (links : List RuntimeLinkState) :
    Prog (Remote ρ) Err (List RuntimeLinkState × Option Err) :=
  match node with
  | none => reconcileAllLinks B clients links underlay running defer
  | some node => reconcileNodeLinks B clients node links underlay running

/-- The links that a reconciliation is about. -/
def considered (node : Option String) (l : RuntimeLinkState) : Bool :=
  match node with
  | none => !(l.validationError || l.linkType = .pending)
  | some node => node ∈ nodesInLink l && !l.validationError

/-- The carriers are deferred only when all links are reconciled. -/
def defers (node : Option String) (defer : Bool) : Bool := node.isNone && defer

/-- On the hosts `B`, a reconciliation leaves the links alone that wait for a device, and as long as
    no creation raises an exception it creates the others. -/
def WaitsForBothEnds (B : Backend ρ) (clients : Clients) (underlay : Dict String String)
    (running : List String) (defer : Bool) (node : Option String) (links : List RuntimeLinkState) :
    Prop :=
  ∀ r, ∃ vs out r', (reconcileLinks B clients underlay running defer node links).run r = (.ok out, r') ∧
    Visits (considered node) (createLink B clients underlay running (defers node defer)) links r vs
      out r' ∧
    (∀ v ∈ vs, Waiting running v.link → v.after = v.before ∧ v.result.state ≠ .up) ∧
    ((∀ v ∈ vs, v.error = none) → ∀ l ∈ links, considered node l = true → ¬Waiting running l →
      ∃ v ∈ vs, v.link = l ∧ v.result.state = .up ∧ .created l ∈ v.after.log)

/-- A link with a device would be created although no device is running: before it there are only
    links without devices, which can be created. -/
def Exposed (clients : Clients) (underlay : Dict String String) (node : Option String)
    (links : List RuntimeLinkState) : Prop :=
  ∃ before l after, links = before ++ l :: after ∧ considered node l = true ∧ nodesInLink l ≠ [] ∧
    Commanded clients underlay l ∧
    ∀ x ∈ before, considered node x = true → nodesInLink x = [] ∧ Creatable clients underlay x

section Reconcile

variable {B : Backend ρ} {clients : Clients} {underlay : Dict String String} {running : List String}
  {defer : Bool} {node : Option String} {links : List RuntimeLinkState}

theorem reconcileLinks_eq : reconcileLinks B clients underlay running defer node links =
    visitLinks (considered node) (createLink B clients underlay running (defers node defer)) links := by
  cases node <;> rfl

/-- With no device running, a link that is created can be created. -/
theorem creatable_of_created {l l' : RuntimeLinkState} {r r' : Remote ρ}
    (h : (createLink B clients underlay [] defer l).run r = (.ok (l', none), r')) :
    Creatable clients underlay l := by
  by_contra hnot
  obtain ⟨e, r₁, hrun⟩ := fails_createByType B defer hnot r
  have hready := createLink_of_ready B clients underlay [] defer l (.inl rfl) r
  rw [hrun] at hready
  obtain ⟨l₁, hl₁, _⟩ := hready
  rw [h] at hl₁
  cases hl₁

/-- With no device running, a link that does not come to a command ends in an exception, and nothing
    has changed. -/
theorem createLink_of_not_commanded {l l' : RuntimeLinkState} {err : Option Err} {r r' : Remote ρ}
    (hnot : ¬Commanded clients underlay l)
    (h : (createLink B clients underlay [] defer l).run r = (.ok (l', err), r')) :
    err ≠ none ∧ r' = r ∧ l'.state ≠ .up := by
  obtain ⟨e, hrun⟩ := rejects_createByType B defer hnot r
  have hready := createLink_of_ready B clients underlay [] defer l (.inl rfl) r
  rw [hrun] at hready
  obtain ⟨l₁, hl₁, hstate⟩ := hready
  rw [h] at hl₁
  cases hl₁
  exact ⟨nofun, rfl, by rw [hstate]; nofun⟩

/-- With no device running and no link exposed, no link with a device is created; the links `before`
    have been passed. -/
theorem left_alone_of_not_exposed {before : List RuntimeLinkState} {r r' : Remote ρ}
    {vs : List (Visit ρ)} {out : List RuntimeLinkState × Option Err}
    (hvs : Visits (considered node) (createLink B clients underlay [] defer) links r vs out r')
    (hbefore : ∀ x ∈ before, considered node x = true →
      nodesInLink x = [] ∧ Creatable clients underlay x)
    (hnot : ¬Exposed clients underlay node (before ++ links)) {v : Visit ρ} (hv : v ∈ vs)
    (hnodes : nodesInLink v.link ≠ []) : v.after = v.before ∧ v.result.state ≠ .up := by
  induction hvs generalizing before with
  | nil => exact absurd hv List.not_mem_nil
  | @skip l rest _ _ _ _ _ hp _ ih =>
    refine ih (fun x hx hc => ?_) (by rwa [List.append_assoc before [l] rest]) hv
    rcases List.mem_append.1 hx with hx | hx
    · exact hbefore x hx hc
    · rw [List.mem_singleton.1 hx, hp] at hc
      cases hc
  | @done l _ rest _ _ _ _ _ _ hp hstep _ ih =>
    have hl : nodesInLink l = [] := by
      by_contra hl
      have hcommanded : ¬Commanded clients underlay l := fun hc =>
        hnot ⟨before, l, rest, rfl, hp, hl, hc, hbefore⟩
      exact (createLink_of_not_commanded hcommanded hstep).1 rfl
    rcases List.mem_cons.1 hv with rfl | hv
    · exact absurd hl hnodes
    · refine ih (fun x hx hc => ?_) (by rwa [List.append_assoc before [l] rest]) hv
      rcases List.mem_append.1 hx with hx | hx
      · exact hbefore x hx hc
      · obtain rfl := List.mem_singleton.1 hx
        exact ⟨hl, creatable_of_created hstep⟩
  | @failed l _ rest _ _ _ hp hstep =>
    obtain rfl := List.mem_singleton.1 hv
    have hcommanded : ¬Commanded clients underlay l := fun hc =>
      hnot ⟨before, l, rest, rfl, hp, hnodes, hc, hbefore⟩
    exact (createLink_of_not_commanded hcommanded hstep).2

/-- Hosts that do as they are told come to an exposed link. -/
theorem exists_visit_of_exposed {before after : List RuntimeLinkState} {l : RuntimeLinkState}
    {r r' : Remote Unit} {vs : List (Visit Unit)} {out : List RuntimeLinkState × Option Err}
    (hvs : Visits (considered node) (createLink agreeable clients underlay [] defer)
      (before ++ l :: after) r vs out r') (hl : considered node l = true)
    (hbefore : ∀ x ∈ before, considered node x = true → Creatable clients underlay x) :
    ∃ v ∈ vs, v.link = l := by
  induction before generalizing r vs out with
  | nil =>
    cases hvs with
    | skip hp _ =>
      rw [hl] at hp
      cases hp
    | done _ _ _ => exact ⟨_, List.mem_cons_self, rfl⟩
    | failed _ _ => exact ⟨_, List.mem_cons_self, rfl⟩
  | cons x before ih =>
    have hrest := fun x hx => hbefore x (List.mem_cons_of_mem _ hx)
    cases hvs with
    | skip _ hrec => exact ih hrec hrest
    | done _ _ hrec =>
      obtain ⟨v, hv, heq⟩ := ih hrec hrest
      exact ⟨v, List.mem_cons_of_mem _ hv, heq⟩
    | failed hp hstep =>
      obtain ⟨_, r₁, hrun⟩ := succeeds_createByType defer
        (hbefore x List.mem_cons_self hp) r
      have hready := createLink_of_ready agreeable clients underlay [] defer x (.inl rfl) r
      rw [hrun] at hready
      obtain ⟨_, hl₁, _⟩ := hready
      rw [hstep] at hl₁
      cases hl₁

/-- The links that need not wait are created, if no creation raises an exception. -/
theorem created_of_visits {r r' : Remote ρ} {vs : List (Visit ρ)}
    {out : List RuntimeLinkState × Option Err}
    (hvs : Visits (considered node) (createLink B clients underlay running defer) links r vs out r')
    (herr : ∀ v ∈ vs, v.error = none) {l : RuntimeLinkState} (hl : l ∈ links)
    (hp : considered node l = true) (hready : ¬Waiting running l) :
    ∃ v ∈ vs, v.link = l ∧ v.result.state = .up ∧ .created l ∈ v.after.log := by
  obtain ⟨v, hv, rfl⟩ := hvs.exists_visit herr hl hp
  have hrun := hvs.step_run hv
  rw [herr v hv] at hrun
  have hspec := createLink_of_ready B clients underlay running defer v.link (.inr hready) v.before
  rcases hcreate : (createByType B clients v.link underlay defer).run v.before with ⟨e | u, r₁⟩ <;>
    rw [hcreate] at hspec
  · obtain ⟨l', hl', _⟩ := hspec
    rw [hrun] at hl'
    cases hl'
  · obtain ⟨l', hl', hup⟩ := hspec
    rw [hrun] at hl'
    obtain ⟨hres, hafter⟩ := Prod.mk.inj hl'
    refine ⟨v, hv, rfl, ?_, ?_⟩
    · rw [(Prod.mk.inj (Except.ok.inj hres)).1]
      exact hup
    · rw [hafter]
      exact List.mem_cons_self

/-- Hosts that do as they are told show that an exposed link does not wait. -/
theorem not_waits_of_exposed (h : Exposed clients underlay node links) :
    ¬WaitsForBothEnds agreeable clients underlay [] defer node links := by
  intro hwaits
  obtain ⟨before, l, after, rfl, hl, hnodes, hcommanded, hbefore⟩ := h
  obtain ⟨vs, out, r', -, hvs, hwait, -⟩ := hwaits ⟨(), []⟩
  obtain ⟨v, hv, rfl⟩ := exists_visit_of_exposed hvs hl fun x hx hc => (hbefore x hx hc).2
  have hafter := (hwait v hv (waiting_nil.2 hnodes)).1
  -- the command is in the log, although nothing was to happen on the hosts
  have hlt := records_createByType agreeable (defers node defer) hcommanded v.before
  have hspec := createLink_of_ready agreeable clients underlay [] (defers node defer) v.link (.inl rfl)
    v.before
  have hrun := hvs.step_run hv
  rcases hcreate : (createByType agreeable clients v.link underlay (defers node defer)).run
    v.before with ⟨e | u, r₁⟩ <;> rw [hcreate] at hspec hlt
  · obtain ⟨l', hl', _⟩ := hspec
    rw [hrun, hafter] at hl'
    rw [← (Prod.mk.inj hl').2] at hlt
    exact lt_irrefl _ hlt
  · obtain ⟨l', hl', _⟩ := hspec
    rw [hrun, hafter] at hl'
    have hlog : v.before.log.length = r₁.log.length + 1 :=
      congrArg (fun r : Remote Unit => r.log.length) (Prod.mk.inj hl').2
    have hlt : v.before.log.length < r₁.log.length := hlt
    omega

/-- A reconciliation waits for both ends of the links, on all hosts, if and only if some device is
    running or no link is exposed. -/
theorem waits_iff (clients : Clients) (underlay : Dict String String) (running : List String)
    (defer : Bool) (node : Option String) (links : List RuntimeLinkState) :
    (∀ (ρ : Type) (B : Backend ρ), WaitsForBothEnds B clients underlay running defer node links) ↔
      running ≠ [] ∨ ¬Exposed clients underlay node links := by
  constructor
  · intro h
    by_contra hnot
    rw [not_or, not_not, not_not] at hnot
    obtain ⟨rfl, hexposed⟩ := hnot
    exact not_waits_of_exposed hexposed (h Unit agreeable)
  · intro h ρ B r
    rw [reconcileLinks_eq]
    obtain ⟨vs, out, r', hrun, hvs⟩ := exists_visits (p := considered node)
      (fun l => succeeds_createLink B clients underlay running (defers node defer) l) links r
    refine ⟨vs, out, r', hrun, hvs, fun v hv hwaiting => ?_,
      fun herr l hl hp hready => created_of_visits hvs herr hl hp hready⟩
    by_cases hrunning : running = []
    · subst hrunning
      have hbefore : ∀ x ∈ ([] : List RuntimeLinkState), considered node x = true →
          nodesInLink x = [] ∧ Creatable clients underlay x :=
        fun _ hx => absurd hx List.not_mem_nil
      have hnot : ¬Exposed clients underlay node ([] ++ links) := h.resolve_left (not_not.2 rfl)
      exact left_alone_of_not_exposed hvs hbefore hnot hv (waiting_nil.1 hwaiting)
    · obtain ⟨l', hl', hstate⟩ := createLink_of_waiting B clients underlay running (defers node defer)
        v.link hrunning hwaiting v.before
      have hstep := hvs.step_run hv
      rw [hl'] at hstep
      obtain ⟨hres, hafter⟩ := Prod.mk.inj hstep
      refine ⟨hafter.symm, ?_⟩
      rw [← (Prod.mk.inj (Except.ok.inj hres)).1, hstate]
      nofun

end Reconcile

/-! ### A lab that is stopped -/

/-- A link between two devices on one host. -/
def idleLink : RuntimeLinkState where
  id := "l0"
  linkType := .sameHost
  endpointA := .vd "r1" "eth1"
  endpointB := .vd "r2" "eth1"
  hostA := "w1"
  hostB := "w1"
  hostEndpointA := "rt-r1-e1-0"
  hostEndpointB := "rt-r2-e1-0"

/-- With all devices stopped, the link is created all the same. -/
theorem not_waits_idle : ¬WaitsForBothEnds agreeable
    (.ofList [("w1", { name := "w1", host := "10.0.0.2" })]) ∅ [] false none [idleLink] :=
  not_waits_of_exposed ⟨[], idleLink, [], rfl, rfl, by decide +kernel, by rw [Commanded]; rfl, by simp⟩

end Dnlab.RuntimeLinks
