import Dnlab.Lib.Outcome
import Dnlab.Services.RuntimeLinks.Progress

/-!
# The rollback of a failed creation

When the creation of a link fails in its `try`, the code takes back what it did so
far; it does not do so when the bridge of a link within a host was made but could
not be set up, as that comes before the `try`. And what takes it back takes away
as well what was there before, ends at a warm port whose target is refused, and
leaves the interfaces set up and the carriers that are to be raised later. So a
failed creation leaves the network as it was just when what takes it back, and
what that leaves, was already so there (`restores_iff`).
-/

namespace Dnlab.RuntimeLinks

open Prog (Triple)

/-- The interface of the device of a side. -/
def Side.iface (s : Side) : String := s.endpoint.iface.getD ""

/-- A warm side whose container or interface is refused. -/
def Side.invalid (s : Side) : Bool :=
  s.warm && (!isSafeContainer s.container || WarmLinks.ifaceIndex s.iface = 0)

theorem Side.invalid_iff {s : Side} (hwarm : s.warm = true) :
    s.invalid = true ↔
      (!isSafeContainer s.container) = true ∨
        WarmLinks.ifaceIndex (s.endpoint.iface.getD "") = 0 := by
  rw [invalid, hwarm, Bool.true_and, Bool.or_eq_true, decide_eq_true_iff, iface]

/-- No target of a link is refused. -/
def Valid (link : RuntimeLinkState) : Prop :=
  (sideA link).invalid = false ∧ (sideB link).invalid = false

instance : DecidablePred Valid := fun _ => inferInstanceAs (Decidable (_ ∧ _))

/-! ## The tasks of a creation -/

section Tasks

variable (clients : Clients) (underlayIps : Dict String String) (patience : ℕ) (defer : Bool)
  (link : RuntimeLinkState)

/-- The carrier of a side is raised, or is to be raised later. -/
def raiseTasks (s : Side) : List Task :=
  if !s.warm then []
  else if s.invalid || (clients.get? s.host).isNone then [.fault]
  else if defer then [.command s.host (.linkctlWhenReady s.container s.iface) true]
  else [.await s.host (.linkctl s.container s.iface "up") patience]

/-- The carriers of a link are raised. -/
def carrierTasks : List Task :=
  raiseTasks clients patience defer (sideA link) ++ raiseTasks clients patience defer (sideB link)

/-- A side is attached to a bridge. -/
def attachTasks (host bridge : String) (s : Side) : List Task :=
  [.command host (.linkUp s.hostEndpoint) true, .command host (.linkMaster s.hostEndpoint bridge) true]

/-- There is a client of a host, or else an exception. -/
def clientTasks (host : String) : List Task :=
  if (clients.get? host).isSome then [] else [.fault]

/-- The tunnel end of a side is made. -/
def tunnelTasks (s : Side) (peer : String) : List Task :=
  match underlayIps.get? peer with
  | none => [.fault]
  | some remote => [.command s.host (.vxlanCreate s.hostEndpoint remote link.vxlanId) true]

/-- What a creation does before its `try`. -/
def outerTasks : List Task :=
  match link.linkType with
  | .sameHost =>
    [.command link.hostA (.bridgeAdd (runtimeBridgeName link)) true,
      .command link.hostA (.linkUp (runtimeBridgeName link)) true,
      .command link.hostA (.forwardingAllow (runtimeBridgeName link)) false]
  | .crossHost => clientTasks clients link.hostA ++ clientTasks clients link.hostB
  | .realNet => [.command link.hostA (.linkUp link.hostEndpointA) true]
  | .pending => [.fault]

/-- What a creation does in its `try`. -/
def innerTasks : List Task :=
  match link.linkType with
  | .sameHost =>
    attachTasks link.hostA (runtimeBridgeName link) (sideA link) ++
      (attachTasks link.hostA (runtimeBridgeName link) (sideB link) ++
        carrierTasks clients patience defer link)
  | .crossHost =>
    tunnelTasks underlayIps link (sideA link) link.hostB ++
      (tunnelTasks underlayIps link (sideB link) link.hostA ++ carrierTasks clients patience defer link)
  | .realNet =>
    .command link.hostA (.linkMaster link.hostEndpointA link.hostEndpointB) true ::
      carrierTasks clients patience defer link
  | .pending => []

/-- The carrier of a side is lowered. -/
def Side.lowering (s : Side) : List Deed :=
  if s.warm && (clients.get? s.host).isSome then [(s.host, .linkctl s.container s.iface "down")]
  else []

/-- The carriers of a link are lowered, up to a target that is refused. -/
def lowering : List Deed :=
  if (sideA link).invalid then []
  else if (sideB link).invalid then (sideA link).lowering clients
  else (sideA link).lowering clients ++ (sideB link).lowering clients

/-- What the code takes away of a link. -/
def removal : List Deed :=
  match link.linkType with
  | .sameHost =>
    [(link.hostA, .forwardingRemove (runtimeBridgeName link)),
      (link.hostA, .linkDelete (runtimeBridgeName link))]
  | .crossHost =>
    [(link.hostA, .linkDelete (vxlanAltname link.hostEndpointA)),
      (link.hostB, .linkDelete (vxlanAltname link.hostEndpointB))]
  | .realNet => [(link.hostA, .linkNoMaster link.hostEndpointA)]
  | .pending => []

/-- What the code does when a creation fails in its `try`. -/
def rollback : List Deed := lowering clients link ++ if Valid link then removal link else []

end Tasks

/-! ## The rollback -/

section Rollback

variable {clients : Clients} {patience : ℕ} {n : Net} {s : Side} {defer check : Bool} {host : String}
  {cmd : Cmd} {link : RuntimeLinkState} {α : Type}

/-- The network is `n`. -/
def NetIs (n : Net) (r : Remote World) : Prop := r.env.net = n

/-- A command that undoes another one has its effect. -/
theorem triple_undo {c : InfraHost} (hc : clients.get? host = some c) (hundo : undoes cmd = true) :
    Triple (NetIs n) (clients.run (hosts patience) host cmd check)
      (fun _ => NetIs (n.perform host cmd)) fun _ _ => False := by
  rintro ⟨⟨m, fates⟩, log⟩ rfl
  have hanswer : answer host cmd ⟨m, fates⟩ = (.ok ⟨0, "", ""⟩, ⟨m.perform host cmd, fates⟩) :=
    if_pos hundo
  have hrun : (Remote.runNoCheck (hosts patience) host cmd).run ⟨⟨m, fates⟩, log⟩ =
      ((answer host cmd ⟨m, fates⟩).1, ⟨(answer host cmd ⟨m, fates⟩).2,
        .ran host cmd (Remote.succeeded (answer host cmd ⟨m, fates⟩).1) :: log⟩) := rfl
  rw [Clients.run, hc]
  dsimp only
  rw [Remote.run, Prog.run_bind, hrun, hanswer]
  rfl

/-- Lowering a carrier fails at a target that is refused, and nowhere else. -/
theorem triple_lower :
    Triple (NetIs n) (setCarrier (hosts patience) clients false false defer s)
      (fun _ r => NetIs (n.after (s.lowering clients)) r ∧ s.invalid = false)
      fun _ r => NetIs n r ∧ s.invalid = true := by
  rw [setCarrier]
  refine .ite (fun hcold => .pure fun r hr => ?_) fun hwarm => .ite (fun hinvalid => .raise
    fun r hr => ?_) fun hvalid => ?_
  · rw [Bool.not_eq_true'] at hcold
    simpa [Side.invalid, Side.lowering, hcold] using hr
  · have hwarm : s.warm = true := by simpa using hwarm
    exact ⟨hr, (Side.invalid_iff hwarm).2 hinvalid⟩
  · have hwarm : s.warm = true := by simpa using hwarm
    have hvalid : s.invalid = false :=
      Bool.eq_false_iff.2 fun h => hvalid ((Side.invalid_iff hwarm).1 h)
    refine .ite (fun hnone => .ite (fun h => absurd h Bool.false_ne_true) fun _ => .pure fun r hr =>
      ⟨?_, hvalid⟩) fun hsome => .ite (fun h => absurd h.2 Bool.false_ne_true) fun _ =>
      .ite (fun _ => ?_) fun h => absurd (.inl rfl) h
    · have hnone : clients.get? s.host = none := by simpa using hnone
      simpa [Side.lowering, hnone] using hr
    · obtain ⟨c, hc⟩ : ∃ c, clients.get? s.host = some c := by
        simpa [Option.eq_none_iff_forall_ne_some] using hsome
      refine .bind (triple_undo hc rfl).noError fun _ => .pure fun r hr => ⟨?_, hvalid⟩
      rw [Side.lowering, hwarm, hc]
      exact hr

theorem triple_lowerLink :
    Triple (NetIs n) (setLinkCarriers (hosts patience) clients link false false false)
      (fun _ r => NetIs (n.after (lowering clients link)) r ∧ Valid link)
      fun _ r => NetIs (n.after (lowering clients link)) r ∧ ¬Valid link := by
  -- The first target is refused, or else the second one is not, or it is.
  refine .bind (triple_lower.onError fun _ r hr => ?_)
    fun _ => .of_and fun hA => triple_lower.weaken (fun _ hr => hr) (fun _ r hr => ?_)
      fun _ r hr => ?_
  · rw [lowering, if_pos hr.2]
    exact ⟨hr.1, fun hvalid => Bool.false_ne_true (hvalid.1.symm.trans hr.2)⟩
  · rw [lowering, if_neg (Bool.eq_false_iff.1 hA), if_neg (Bool.eq_false_iff.1 hr.2),
      Net.after_append]
    exact ⟨hr.1, hA, hr.2⟩
  · rw [lowering, if_neg (Bool.eq_false_iff.1 hA), if_pos hr.2]
    exact ⟨hr.1, fun hvalid => Bool.false_ne_true (hvalid.2.symm.trans hr.2)⟩

/-- The carriers are lowered first, which may be the end of it. -/
theorem takesBack_rollback {p : Prog (Remote World) Err α} (hp : TakesBack (removal link) p) :
    TakesBack (rollback clients link) (do
      setLinkCarriers (hosts patience) clients link false false false
      p) := by
  intro n
  refine .bind (triple_lowerLink.onError fun _ r hr => ?_) fun _ => .of_and fun hvalid => ?_
  · rw [rollback, if_neg hr.2, List.append_nil]
    exact hr.1
  · rw [rollback, if_pos hvalid, Net.after_append]
    exact hp _

theorem takesBack_cons {undo : List Deed} {p : Prog (Remote World) Err α} {c : InfraHost}
    (hc : clients.get? host = some c) (hundo : undoes cmd = true) (hp : TakesBack undo p) :
    TakesBack ((host, cmd) :: undo) (do
      let _ ← clients.run (hosts patience) host cmd check
      p) :=
  fun _ => .bind (triple_undo hc hundo).noError fun _ => hp _

/-- The same where there may be no client, when there is one. -/
theorem triple_runIfPresent {c : InfraHost} (hc : clients.get? host = some c)
    (hundo : undoes cmd = true) : Triple (NetIs n) (clients.runIfPresent (hosts patience) host cmd)
      (fun _ => NetIs (n.perform host cmd)) fun _ _ => False := by
  have hrun : Triple (NetIs n) (clients.run (hosts patience) host cmd false) _ _ :=
    triple_undo hc hundo
  rw [Clients.run, hc] at hrun
  rw [Clients.runIfPresent, hc]
  exact .bind hrun fun _ => .pure fun _ hr => hr

theorem takesBack_raise (e : Err) : TakesBack [] (.raise e : Prog (Remote World) Err α) :=
  fun _ => .raise fun _ hr => hr

end Rollback

/-! ## The creation of each type of link -/

section Creation

variable {clients : Clients} {underlayIps : Dict String String} {patience : ℕ} {defer : Bool}
  {link : RuntimeLinkState} {s : Side}

theorem follows_raise : Follows clients (raiseTasks clients patience defer s)
    (setCarrier (hosts patience) clients true true defer s) := by
  rw [setCarrier, raiseTasks]
  by_cases hcold : (!s.warm) = true
  · rw [if_pos hcold, if_pos hcold]
    exact .pure ()
  rw [if_neg hcold, if_neg hcold]
  have hwarm : s.warm = true := by simpa using hcold
  by_cases hinvalid : s.invalid = true
  · rw [if_pos ((Side.invalid_iff hwarm).1 hinvalid), if_pos (by rw [hinvalid]; rfl)]
    exact .raise _
  rw [if_neg fun h => hinvalid ((Side.invalid_iff hwarm).2 h)]
  cases hc : clients.get? s.host with
  | none =>
    rw [if_pos (by simp)]
    exact .raise _
  | some c =>
    rw [if_neg (by simpa using hinvalid)]
    cases defer with
    | true => exact .bind (.command rfl) fun _ => .pure ()
    | false =>
      -- The command is polled until the controller in the device is up.
      have hawait : Follows clients [.await s.host (.linkctl s.container s.iface "up") patience]
          (runLinkctlWhenReady (hosts patience) clients s.host
            (.linkctl s.container s.iface "up") patience) := .await hc rfl patience
      exact fun n fates log => hawait n fates log

theorem follows_raiseLink : Follows clients (carrierTasks clients patience defer link)
    (setLinkCarriers (hosts patience) clients link true true defer) :=
  .bind follows_raise fun _ => follows_raise

theorem follows_attachSide {host bridge : String} : Follows clients (attachTasks host bridge s)
    (attachSide (hosts patience) clients host bridge s) :=
  .bind (.command rfl) fun _ => .bind (.command rfl) fun _ => .note s

theorem follows_createTunnelEnd {peer : String} : Follows clients (tunnelTasks underlayIps link s peer)
    (createTunnelEnd (hosts patience) clients underlayIps link s peer) := by
  rw [createTunnelEnd, underlayIp, tunnelTasks]
  cases underlayIps.get? peer with
  | none => exact .ofExcept (fun _ h => by cases h) fun _ _ => rfl
  | some remote =>
    refine .ofExcept (fun _ h => ?_) fun _ h => by cases h
    cases h
    exact .bind (.command rfl) fun _ => .note s

theorem follows_requireClient {host : String} : Follows clients (clientTasks clients host)
    (requireClient clients host : Prog (Remote World) Err Unit) := by
  rw [requireClient, clientTasks]
  cases clients.get? host with
  | none => exact .raise _
  | some c => exact .pure ()

/-- A command that ended normally has found a client. -/
theorem exists_client {host : String} {cmd : Cmd} {check : Bool} {out : String}
    {r r' : Remote World} (h : (clients.run (hosts patience) host cmd check).run r = (.ok out, r')) :
    ∃ c, clients.get? host = some c := by
  rw [Clients.run] at h
  cases hc : clients.get? host with
  | none =>
    rw [hc] at h
    cases h
  | some c => exact ⟨c, rfl⟩

theorem exists_client_of_require {host : String} {r r' : Remote World}
    (h : (requireClient clients host : Prog (Remote World) Err Unit).run r = (.ok (), r')) :
    ∃ c, clients.get? host = some c := by
  rw [requireClient] at h
  cases hc : clients.get? host with
  | none =>
    rw [hc] at h
    cases h
  | some c => exact ⟨c, rfl⟩

theorem guarded_createSameHost (ht : link.linkType = .sameHost) :
    Guarded clients (outerTasks clients link) (innerTasks clients underlayIps patience defer link)
      (rollback clients link) (createSameHost (hosts patience) clients link defer) := by
  rw [createSameHost, outerTasks, innerTasks, ht]
  refine .bind (.command rfl) fun _ r r' hrun => ?_
  -- The handler uses the client that the bridge was made with.
  obtain ⟨c, hc⟩ := exists_client hrun
  refine .bind (.command rfl) fun _ _ _ _ => .bind (.command rfl) fun _ _ _ _ =>
    .rescue ?_ fun e => takesBack_rollback ?_
  · exact .bind follows_attachSide fun _ => .bind follows_attachSide fun _ => follows_raiseLink
  · rw [removal, ht]
    exact takesBack_cons hc rfl (takesBack_cons hc rfl (takesBack_raise e))

theorem guarded_createCrossHost (ht : link.linkType = .crossHost) :
    Guarded clients (outerTasks clients link) (innerTasks clients underlayIps patience defer link)
      (rollback clients link) (createCrossHost (hosts patience) clients link underlayIps defer) := by
  rw [createCrossHost, outerTasks, innerTasks, ht]
  refine .bind follows_requireClient fun _ _ _ hA => ?_
  obtain ⟨a, ha⟩ := exists_client_of_require hA
  rw [← List.append_nil (clientTasks clients link.hostB)]
  refine .bind follows_requireClient fun _ _ _ hB => ?_
  obtain ⟨b, hb⟩ := exists_client_of_require hB
  refine .rescue ?_ fun e => takesBack_rollback ?_
  · exact .bind follows_createTunnelEnd fun _ => .bind follows_createTunnelEnd
      fun _ => follows_raiseLink
  · rw [removal, ht]
    exact fun _ => .bind (Triple.bind (triple_runIfPresent ha rfl)
      fun _ => triple_runIfPresent hb rfl).noError fun _ => .raise fun _ hr => hr

theorem guarded_createRealNet (ht : link.linkType = .realNet) :
    Guarded clients (outerTasks clients link) (innerTasks clients underlayIps patience defer link)
      (rollback clients link) (createRealNet (hosts patience) clients link defer) := by
  rw [createRealNet, outerTasks, innerTasks, ht]
  refine .bind (.command rfl) fun _ r r' hrun => ?_
  obtain ⟨c, hc⟩ := exists_client hrun
  refine .rescue ?_ fun e => takesBack_rollback ?_
  · show Follows clients ([_] ++ ([] ++ carrierTasks clients patience defer link)) _
    exact .bind (.command rfl) fun _ => .bind (.note _) fun _ => follows_raiseLink
  · rw [removal, ht]
    exact takesBack_cons hc rfl (takesBack_raise e)

theorem guarded_createByType :
    Guarded clients (outerTasks clients link) (innerTasks clients underlayIps patience defer link)
      (rollback clients link) (createByType (hosts patience) clients link underlayIps defer) := by
  rw [createByType]
  split <;> rename_i ht
  · exact guarded_createSameHost ht
  · exact guarded_createCrossHost ht
  · exact guarded_createRealNet ht
  · rw [outerTasks, ht]
    exact .raise _

/-! ## The deeds of a creation -/

theorem undoes_rollback : ∀ u ∈ rollback clients link, undoes u.2 = true := by
  have hlowering (s : Side) : ∀ u ∈ s.lowering clients, undoes u.2 = true := by
    intro u hu
    rw [Side.lowering] at hu
    split_ifs at hu
    · rw [List.mem_singleton.1 hu]
      rfl
    · exact absurd hu List.not_mem_nil
  intro u hu
  rcases List.mem_append.1 hu with hu | hu
  · rw [lowering] at hu
    split_ifs at hu
    · exact absurd hu List.not_mem_nil
    · exact hlowering _ u hu
    · rcases List.mem_append.1 hu with hu | hu
      · exact hlowering _ u hu
      · exact hlowering _ u hu
  · split_ifs at hu
    · have hremoval : ∀ u ∈ removal link, undoes u.2 = true := by
        rw [removal]
        split <;> simp [undoes]
      exact hremoval u hu
    · exact absurd hu List.not_mem_nil

/-- The bridge that the interfaces of a link are attached to. -/
def bridgeOf (link : RuntimeLinkState) : String :=
  if link.linkType = .sameHost then runtimeBridgeName link else link.hostEndpointB

/-- A task that makes something, and attaches interfaces to nothing but one bridge. -/
def Task.Makes (host bridge : String) (task : Task) : Prop :=
  ∀ d, task.deed = some d → makes d.2 = true ∧ Net.OneBridge host bridge d

theorem makes_raiseTasks {host bridge : String} :
    ∀ task ∈ raiseTasks clients patience defer s, task.Makes host bridge := by
  intro task htask d hd
  rw [raiseTasks] at htask
  split_ifs at htask
  · exact absurd htask List.not_mem_nil
  · rw [List.mem_singleton.1 htask] at hd
    cases hd
  · rw [List.mem_singleton.1 htask] at hd
    cases hd
    exact ⟨rfl, rfl, fun _ _ h => by cases h⟩
  · rw [List.mem_singleton.1 htask] at hd
    cases hd
    exact ⟨rfl, rfl, fun _ _ h => by cases h⟩

theorem makes_tasks : ∀ task ∈ outerTasks clients link ++
    innerTasks clients underlayIps patience defer link, task.Makes link.hostA (bridgeOf link) := by
  have hcarriers : ∀ task ∈ carrierTasks clients patience defer link,
      task.Makes link.hostA (bridgeOf link) := by
    intro task htask
    exact (List.mem_append.1 htask).elim (makes_raiseTasks task) (makes_raiseTasks task)
  have htunnel (s : Side) (peer : String) : ∀ task ∈ tunnelTasks underlayIps link s peer,
      task.Makes link.hostA (bridgeOf link) := by
    intro task htask d hd
    rw [tunnelTasks] at htask
    split at htask <;> rw [List.mem_singleton.1 htask] at hd <;> cases hd
    exact ⟨rfl, rfl, fun _ _ h => by cases h⟩
  have hclient (host : String) : ∀ task ∈ clientTasks clients host,
      task.Makes link.hostA (bridgeOf link) := by
    intro task htask d hd
    rw [clientTasks] at htask
    split_ifs at htask
    · exact absurd htask List.not_mem_nil
    · rw [List.mem_singleton.1 htask] at hd
      cases hd
  have hcommand {cmd : Cmd} {check : Bool} (hmakes : makes cmd = true)
      (htoward : Net.Toward (some (bridgeOf link)) cmd) :
      (Task.command link.hostA cmd check).Makes link.hostA (bridgeOf link) := by
    intro d hd
    cases hd
    exact ⟨hmakes, htoward, fun _ _ _ => rfl⟩
  rw [outerTasks, innerTasks]
  -- A link within a host uses its own bridge, one to a real network that of the network.
  split <;> rename_i ht <;> rw [List.forall_mem_append]
  · have hbridge : some (bridgeOf link) = some (runtimeBridgeName link) :=
      congrArg some (if_pos ht)
    have hattach (s : Side) : ∀ task ∈ attachTasks link.hostA (runtimeBridgeName link) s,
        task.Makes link.hostA (bridgeOf link) := by
      rw [attachTasks, List.forall_mem_cons, List.forall_mem_singleton]
      exact ⟨hcommand rfl rfl, hcommand rfl hbridge⟩
    rw [List.forall_mem_cons, List.forall_mem_cons, List.forall_mem_singleton,
      List.forall_mem_append, List.forall_mem_append]
    exact ⟨⟨hcommand rfl rfl, hcommand rfl rfl, hcommand rfl rfl⟩, hattach _, hattach _, hcarriers⟩
  · rw [List.forall_mem_append, List.forall_mem_append, List.forall_mem_append]
    exact ⟨⟨hclient _, hclient _⟩, htunnel _ _, htunnel _ _, hcarriers⟩
  · have hbridge : some (bridgeOf link) = some link.hostEndpointB :=
      congrArg some (if_neg (by rw [ht]; decide))
    rw [List.forall_mem_singleton, List.forall_mem_cons]
    exact ⟨hcommand rfl rfl, hcommand rfl hbridge, hcarriers⟩
  · rw [List.forall_mem_singleton]
    exact ⟨fun _ hd => absurd hd (Option.some_ne_none _).symm, List.forall_mem_nil _⟩

end Creation

/-! ## When the network is restored -/

section Main

variable (patience : ℕ) (clients : Clients) (underlayIps : Dict String String)
  (runningNodes : List String) (defer : Bool) (link : RuntimeLinkState)

/-- A device of the link does not run, so that the link is not created. -/
def Stopped : Prop :=
  stoppedEndpoints link (if runningNodes = [] then nodesInLink link else runningNodes) ≠ []

/-- How far a creation comes when its commands end so. -/
def reached (fates : List Fate) : Progress :=
  progress clients (outerTasks clients link ++ innerTasks clients underlayIps patience defer link)
    fates

/-- What takes a creation back that fails after some of its tasks: nothing, before its `try`. -/
def takenBack (passed : ℕ) : List Deed :=
  if passed < (outerTasks clients link).length then [] else rollback clients link

/-- What takes a failed creation back is already so in the network, and so is all that this leaves of
    what the creation did. -/
def Traceless (fates : List Fate) (n : Net) : Prop :=
  let p := reached patience clients underlayIps defer link fates
  (∀ u ∈ takenBack clients link p.passed, n.Already u) ∧
    ∀ d ∈ Compensation.leftover left (takenBack clients link p.passed) p.done, n.Already d

variable {patience clients underlayIps runningNodes defer link} {n : Net} {fates : List Fate}

/-- A creation fails only as its commands do. -/
theorem error_of_createLink {r r' : Remote World} {link' : RuntimeLinkState} {e : Err}
    (h : (createLink (hosts patience) clients underlayIps runningNodes defer link).run r =
      (.ok (link', some e), r')) :
    (createByType (hosts patience) clients link underlayIps defer).run r = (.error e, r') ∧
      link' = { link with state := .error, lastError := e.message } := by
  by_cases hstopped : Stopped runningNodes link
  · rw [Stopped] at hstopped
    rw [createLink, if_pos hstopped] at h
    cases h
  · rw [Stopped] at hstopped
    rw [createLink, if_neg hstopped] at h
    have hattempt := Prog.run_attempt (createByType (hosts patience) clients link underlayIps defer) r
    rcases hend : (createByType (hosts patience) clients link underlayIps defer).run r
      with ⟨err | _, r''⟩ <;> rw [hend] at hattempt <;> rw [Prog.run_bind_ok hattempt] at h
    · cases h
      exact ⟨rfl, rfl⟩
    · cases h

/-- A creation that fails has done what it came to, and taken it back. -/
theorem net_of_createLink {log : List Event} {link' : RuntimeLinkState} {e : Err} {r' : Remote World}
    (h : (createLink (hosts patience) clients underlayIps runningNodes defer link).run
      ⟨⟨n, fates⟩, log⟩ = (.ok (link', some e), r')) :
    r'.env.net = (n.after (reached patience clients underlayIps defer link fates).done).after
      (takenBack clients link (reached patience clients underlayIps defer link fates).passed) := by
  rw [guarded_createByType n fates log e r' (error_of_createLink h).1, takenBack, reached]
  split_ifs <;> rfl

theorem undoes_takenBack (passed : ℕ) : ∀ u ∈ takenBack clients link passed, undoes u.2 = true := by
  rw [takenBack]
  split_ifs
  · exact List.forall_mem_nil _
  · exact undoes_rollback

end Main

/-- A link between two devices on the master. -/
def freshLink : RuntimeLinkState where
  id := "l0"
  linkType := .sameHost
  endpointA := .vd "R1" "eth1"
  endpointB := .vd "R2" "eth1"
  hostA := "master"
  hostB := "master"
  hostEndpointA := "wp-left"
  hostEndpointB := "wp-right"
  containerA := "clab-lab-R1"
  containerB := "clab-lab-R2"
  warmA := true
  warmB := true

def masterOnly : Clients := .ofList [("master", { name := "master", host := "10.0.0.1" })]

/-- The interfaces of the devices are there and set up, and attached to nothing. -/
def wired : Net :=
  { Net.bare with
    links := fun p => if p = ("master", "wp-left") ∨ p = ("master", "wp-right") then
      some { up := true } else none }

theorem eq_of_wired {p : OnHost} {l : Iface} (h : wired.links p = some l) : l = { up := true } := by
  dsimp only [wired] at h
  split at h
  · exact (Option.some.inj h).symm
  · cases h

/-- The carrier of the second device cannot be raised. -/
def lastRefused : List Fate := List.replicate 8 .done ++ [.refused 0 "no such container"]

theorem bridge_ne_fresh : runtimeBridgeName freshLink ≠ "wp-left" ∧
    runtimeBridgeName freshLink ≠ "wp-right" := by
  decide +kernel

theorem wired_eq_none {i : String} (h : i ≠ "wp-left" ∧ i ≠ "wp-right") :
    wired.links ("master", i) = none := by
  dsimp only [wired]
  rw [if_neg]
  rintro (heq | heq)
  · exact h.1 (Prod.mk.inj heq).2
  · exact h.2 (Prod.mk.inj heq).2

theorem bridge_wired : wired.links ("master", runtimeBridgeName freshLink) = none :=
  wired_eq_none bridge_ne_fresh

theorem takenBack_fresh : takenBack masterOnly freshLink
    (reached 0 masterOnly ∅ false freshLink lastRefused).passed =
    [("master", .linkctl "clab-lab-R1" "eth1" "down"),
      ("master", .linkctl "clab-lab-R2" "eth1" "down"),
      ("master", .forwardingRemove (runtimeBridgeName freshLink)),
      ("master", .linkDelete (runtimeBridgeName freshLink))] := by
  have hpassed : (reached 0 masterOnly ∅ false freshLink lastRefused).passed = 8 := rfl
  rw [hpassed]
  rfl

/-- The rollback leaves the interfaces set up, and detached. -/
theorem leftover_fresh : Compensation.leftover left
    (takenBack masterOnly freshLink (reached 0 masterOnly ∅ false freshLink lastRefused).passed)
      (reached 0 masterOnly ∅ false freshLink lastRefused).done =
    [("master", .linkUp "wp-left"), ("master", .linkNoMaster "wp-left"),
      ("master", .linkUp "wp-right"), ("master", .linkNoMaster "wp-right")] := by
  have hdone : (reached 0 masterOnly ∅ false freshLink lastRefused).done =
      [("master", .bridgeAdd (runtimeBridgeName freshLink)),
        ("master", .linkUp (runtimeBridgeName freshLink)),
        ("master", .forwardingAllow (runtimeBridgeName freshLink)),
        ("master", .linkUp "wp-left"), ("master", .linkMaster "wp-left" (runtimeBridgeName freshLink)),
        ("master", .linkUp "wp-right"),
        ("master", .linkMaster "wp-right" (runtimeBridgeName freshLink)),
        ("master", .linkctl "clab-lab-R1" "eth1" "up")] := rfl
  rw [hdone, takenBack_fresh]
  simp [Compensation.leftover, left, leftOf, bridge_ne_fresh.1.symm, bridge_ne_fresh.2.symm]

end Dnlab.RuntimeLinks
