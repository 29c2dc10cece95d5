import Dnlab.Controllers.Deploy.Bookkeeping
import Dnlab.Services.WebuiPorts

/-!
# The ports of web interfaces over a redeployment

A deployment allocates a port for every entry of the wishlists, one after the
other, and prefers the one that the entry had before. That is serving requests
from a pool: the ports differ, are in the range, and are not among those that
`docker ps` is seen to show (`Pool.mem_of_takeAll`). A port of another lab that
is not seen there, such as one that is printed in a range of ports, is hidden
from the deployment, which may hand it out. An entry keeps its port unless an
entry without one comes first and gets it (`allocateWebuiPorts_sticky_iff`).
-/

namespace Dnlab.Deploy

open Ctl
open WebuiPorts (parsePortRange portsInUse)

variable {ρ : Type}

/-- Services that allocate ports as `WebuiPorts` does. -/
def withWebuiPorts (S : DeployServices ρ) : DeployServices ρ :=
  { S with allocateWebuiPort := WebuiPorts.allocateWebuiPort S.backend }

/-- The container ports of a wishlist that get a host port. -/
def requestedPorts (wishlist : List WebUISpec) : List ℕ :=
  (wishlist.filter fun spec => 0 < spec.containerPort).map (·.containerPort.toNat)

/-- The entries that get a host port, in the order in which they are served. -/
def requests (wishlists : List (String × List WebUISpec)) : List (String × ℕ) :=
  wishlists.flatMap fun (node, wishlist) => (requestedPorts wishlist).map (node, ·)

/-- The host port that a container port of a device had. -/
def previousPort (previous : Option DeploymentState) (node : String) (containerPort : ℕ) :
    Option ℕ :=
  (Dict.ofList (((previousPorts previous).getD node []).map fun a =>
    (a.containerPort, a.hostPort))).get? containerPort

/-- The allocations with their devices. -/
def entries (allocated : List (String × List WebUIAllocation)) : List (String × WebUIAllocation) :=
  allocated.flatMap fun (node, as) => as.map (node, ·)

/-- The host ports that the entries had. -/
def hints (previous : Option DeploymentState) (wishlists : List (String × List WebUISpec)) :
    List (Option ℕ) :=
  (requests wishlists).map fun (node, port) => previousPort previous node port

/-- What the entries want: the host ports that they had, in the range and not used by others. -/
def wishes (previous : Option DeploymentState) (low high : ℕ) (others : List ℕ)
    (wishlists : List (String × List WebUISpec)) : List (Option ℕ) :=
  (hints previous wishlists).map (Pool.want low high others)

section Spec

variable {S : DeployServices ρ} {cfg : WebUIPortsCfg} {r : Reply} {low high : ℕ}
  (hps : ∀ env, (S.backend.exec "master" .publishedPorts env).1 = .ok r)
  (hrange : parsePortRange cfg.portRange = .ok (low, high))

include hps hrange in
/-- The wishlist of one device is served from the pool. -/
theorem takeAll_of_allocatePorts {hints : Dict ℕ ℕ} {existing : List ℕ} {wishlist : List WebUISpec}
    {as : List WebUIAllocation} {w w' : World ρ}
    (h : (Node.allocatePorts (withWebuiPorts S).toServices cfg hints existing wishlist).run w =
      (.ok as, w')) :
    as.map (·.containerPort) = requestedPorts wishlist ∧
      Pool.takeAll low high (portsInUse cfg.bindIp r) existing
        ((requestedPorts wishlist).map hints.get?) = some (as.map (·.hostPort)) := by
  induction wishlist generalizing existing as w w' with
  | nil =>
    cases h
    exact ⟨rfl, rfl⟩
  | cons spec wishlist ih =>
    rw [Node.allocatePorts] at h
    split at h
    · have hskip : requestedPorts (spec :: wishlist) = requestedPorts wishlist := by
        rw [requestedPorts, List.filter_cons_of_neg (by simpa using ‹spec.containerPort ≤ 0›)]
        rfl
      rw [hskip]
      exact ih h
    · have htake : requestedPorts (spec :: wishlist) =
          spec.containerPort.toNat :: requestedPorts wishlist := by
        rw [requestedPorts, List.filter_cons_of_pos (by simpa using ‹¬spec.containerPort ≤ 0›)]
        rfl
      obtain ⟨port, w₁, hport, h⟩ := Prog.run_bind_eq_ok h
      obtain ⟨rest, w₂, hrest, h⟩ := Prog.run_bind_eq_ok h
      cases h
      obtain ⟨hkeys, hpool⟩ := ih hrest
      have hport := WebuiPorts.take_of_allocateWebuiPort hps hrange (congrArg Prod.fst hport)
      rw [htake]
      refine ⟨congrArg _ hkeys, ?_⟩
      rw [List.map_cons, Pool.takeAll, hport, Option.bind_eq_bind, Option.bind_some, hpool]
      rfl

include hps hrange in
/-- All wishlists are served from the pool. -/
theorem takeAll_of_allocateAll {previous : Option DeploymentState} {used : List ℕ}
    {wishlists : List (String × List WebUISpec)} {allocated : List (String × List WebUIAllocation)}
    {w w' : World ρ}
    (h : (allocateAll (withWebuiPorts S) cfg (previousPorts previous) used wishlists).run w =
      (.ok allocated, w')) :
    (entries allocated).map (fun e => (e.1, e.2.containerPort)) = requests wishlists ∧
      (allocated.map Prod.fst).Sublist (wishlists.map Prod.fst) ∧
      Pool.takeAll low high (portsInUse cfg.bindIp r) used (hints previous wishlists) =
          some ((entries allocated).map fun e => e.2.hostPort) := by
  induction wishlists generalizing used allocated w w' with
  | nil =>
    cases h
    exact ⟨rfl, .slnil, rfl⟩
  | cons e wishlists ih =>
    obtain ⟨node, wishlist⟩ := e
    obtain ⟨as, w₁, has, h⟩ := Prog.run_bind_eq_ok h
    obtain ⟨rest, w₂, hrest, h⟩ := Prog.run_bind_eq_ok h
    obtain ⟨hkeys, hpool⟩ := takeAll_of_allocatePorts hps hrange has
    obtain ⟨hkeys', hsub, hpool'⟩ := ih hrest
    -- a device without an entry has no ports, and is left out
    have hentries : entries allocated = as.map (node, ·) ++ entries rest := by
      cases h
      split
      · simp [entries, ‹as = []›]
      · rfl
    have hsub' : (allocated.map Prod.fst).Sublist (((node, wishlist) :: wishlists).map Prod.fst) := by
      cases h
      split
      · exact hsub.cons _
      · exact hsub.cons_cons _
    have hrequests : requests ((node, wishlist) :: wishlists) =
        (requestedPorts wishlist).map (node, ·) ++ requests wishlists := rfl
    refine ⟨?_, hsub', ?_⟩
    · rw [hentries, hrequests, List.map_append, hkeys', ← hkeys, List.map_map, List.map_map]
      rfl
    · rw [hints, hentries, hrequests, List.map_append, List.map_append, List.map_map, List.map_map]
      exact Pool.takeAll_append hpool hpool'

end Spec

/-- The entries get what they want if and only if they get it one by one. -/
theorem forall₂_meets_iff {previous : Option DeploymentState} {low high : ℕ} {others : List ℕ}
    {wishlists : List (String × List WebUISpec)} {allocated : List (String × List WebUIAllocation)}
    (h : (entries allocated).map (fun e => (e.1, e.2.containerPort)) = requests wishlists) :
    List.Forall₂ Pool.Meets (wishes previous low high others wishlists)
        ((entries allocated).map fun e => e.2.hostPort) ↔
      ∀ e ∈ entries allocated,
        Pool.Meets (Pool.want low high others (previousPort previous e.1 e.2.containerPort))
          e.2.hostPort := by
  rw [wishes, hints, ← h, List.map_map, List.map_map, List.forall₂_map_left_iff, List.forall₂_map_right_iff,
    List.forall₂_same]
  rfl

/-- What a deployment allocates: one port for each entry that asks for one, all different, in the
    range, and none of the ports `used`. -/
structure Allocated (wishlists : List (String × List WebUISpec)) (low high : ℕ) (used : List ℕ)
    (allocated : List (String × WebUIAllocation)) : Prop where
  served : allocated.map (fun e => (e.1, e.2.containerPort)) = requests wishlists
  nodup : (allocated.map fun e => e.2.hostPort).Nodup
  range : ∀ e ∈ allocated, low ≤ e.2.hostPort ∧ e.2.hostPort ≤ high
  unused : ∀ e ∈ allocated, e.2.hostPort ∉ used

/-- An entry keeps the host port that it had, if that is in the range and not used by others. -/
def Sticky (previous : Option DeploymentState) (low high : ℕ) (others : List ℕ)
    (allocated : List (String × WebUIAllocation)) : Prop :=
  ∀ e ∈ allocated, ∀ p, previousPort previous e.1 e.2.containerPort = some p → low ≤ p → p ≤ high →
    p ∉ others → e.2.hostPort = p

theorem sticky_iff_meets {previous : Option DeploymentState} {low high : ℕ} {others : List ℕ}
    {allocated : List (String × WebUIAllocation)} :
    Sticky previous low high others allocated ↔ ∀ e ∈ allocated,
      Pool.Meets (Pool.want low high others (previousPort previous e.1 e.2.containerPort))
        e.2.hostPort := by
  refine forall₂_congr fun e _ => forall_congr' fun p => ?_
  rw [Pool.want, Option.filter_eq_some_iff, decide_eq_true_eq]
  tauto

/-- The ports that other labs use in the range although `docker ps` is not seen to show them. -/
def hiddenPorts (cfg : WebUIPortsCfg) (r : Reply) (low high : ℕ) (others : List ℕ) : List ℕ :=
  Pool.hidden low high (portsInUse cfg.bindIp r) others

/-- The allocation in a deployment, from a new state, where `others` are the ports that other labs
    use: the ports are as they should be and every entry keeps its port, if and only if no entry had
    a hidden port of another lab, and the entries without a port to keep leave enough room for the
    others and for the hidden ports. -/
theorem allocateWebuiPorts_sticky_iff (S : DeployServices ρ) (r : Reply)
    (hps : ∀ env, (S.backend.exec "master" .publishedPorts env).1 = .ok r)
    (previous : Option DeploymentState) (others : List ℕ) (w w' : World ρ) (low high : ℕ)
    (hrange : parsePortRange w.topo.webuiPorts.portRange = .ok (low, high))
    (hnew : w.state.webuiAllocations = ∅)
    (h : (allocateWebuiPorts (withWebuiPorts S) previous).run w = (.ok (), w')) :
    Allocated w.topo.webuiWishlist.items low high
          (portsInUse w.topo.webuiPorts.bindIp r ++ others)
          (entries w'.state.webuiAllocations.items) ∧
        Sticky previous low high others (entries w'.state.webuiAllocations.items) ↔
      (∀ p, some p ∈ hints previous w.topo.webuiWishlist.items →
          p ∉ hiddenPorts w.topo.webuiPorts r low high others) ∧
        Pool.Undisturbed low (portsInUse w.topo.webuiPorts.bindIp r)
          (hiddenPorts w.topo.webuiPorts r low high others) [] 0
          (wishes previous low high others w.topo.webuiWishlist.items) := by
  obtain ⟨t, w₁, ht, h⟩ := Prog.run_bind_eq_ok h
  cases ht
  rw [Prog.when] at h
  split at h
  · obtain ⟨allocated, w₂, hall, h⟩ := Prog.run_bind_eq_ok h
    obtain ⟨_, w₃, hset, h⟩ := Prog.run_bind_eq_ok h
    cases hset
    cases h
    obtain ⟨hserved, hsub, hpool⟩ := takeAll_of_allocateAll hps hrange hall
    have hitems : (Dict.ofList allocated).items = allocated :=
      Dict.items_ofList_of_nodup (hsub.nodup w.topo.webuiWishlist.nodup_keys)
    rw [show (Dict.ofList allocated).items = allocated from hitems]
    have hkept := Pool.takeAll_kept_iff others hpool
    rw [← wishes, forall₂_meets_iff hserved, ← sticky_iff_meets, List.forall_mem_map] at hkept
    rw [hiddenPorts, ← hkept, and_comm]
    refine and_congr_right fun _ => ⟨fun halloc e he hmem => ?_, fun hothers => ?_⟩
    · exact halloc.unused e he (List.mem_append_right _ hmem)
    · have hmem : ∀ e ∈ entries allocated, (low ≤ e.2.hostPort ∧ e.2.hostPort ≤ high) ∧
          e.2.hostPort ∉ portsInUse w.topo.webuiPorts.bindIp r ∧ e.2.hostPort ∉ [] := fun e he =>
        Pool.mem_of_takeAll hpool (List.mem_map.2 ⟨e, he, rfl⟩)
      exact ⟨hserved, Pool.nodup_of_takeAll hpool, fun e he => (hmem e he).1, fun e he hused =>
        (List.mem_append.1 hused).elim (hmem e he).2.1 (hothers e he)⟩
  · -- nothing is asked for, and nothing was allocated
    cases h
    have hempty : w.topo.webuiWishlist.items = [] := by simpa using ‹¬w.topo.webuiWishlist.items ≠ []›
    rw [hempty, hnew]
    exact iff_of_true ⟨⟨rfl, List.nodup_nil, by simp [entries], by simp [entries]⟩,
      by simp [Sticky, entries]⟩ ⟨by simp [hints, requests], trivial⟩

/-! ### A new device before an old one -/

/-- A lab in which `r1` has been added before `r2`, both with a web interface. -/
def webTopo : DistributedTopology :=
  { officeTopo with webuiWishlist := .ofList [("r1", [⟨443⟩]), ("r2", [⟨443⟩])] }

/-- Before, `r2` was alone, with a host port. -/
def webBefore (hostPort : ℕ) : DeploymentState :=
  { labName := "office"
    topologyFile := "office.yml"
    webuiAllocations := .ofList [("r2", [⟨443, hostPort, "127.0.0.1", "tcp"⟩])] }

/-- The world of the deployment when it comes to the ports. -/
def webWorld (hostPort : ℕ) : World Unit where
  topo := webTopo
  state := { labName := "office", topologyFile := "office.yml" }
  saved := webBefore hostPort
  remote := { env := () }

/-- Services that allocate ports, where `docker ps` prints a text. -/
def showing (out : String) : DeployServices Unit :=
  { quietServices with
    backend := { quietServices.backend with exec := fun _ _ env => (.ok ⟨0, out, ""⟩, env) } }

/-- The world after the ports have been allocated. -/
def webAfter (hostPort : ℕ) (out : String) : World Unit :=
  ((allocateWebuiPorts (withWebuiPorts (showing out)) (some (webBefore hostPort))).run
    (webWorld hostPort)).2

theorem run_webWorld {hostPort : ℕ} {out : String}
    (hok : ((allocateWebuiPorts (withWebuiPorts (showing out)) (some (webBefore hostPort))).run
      (webWorld hostPort)).1.isOk = true) :
    (allocateWebuiPorts (withWebuiPorts (showing out)) (some (webBefore hostPort))).run
      (webWorld hostPort) = (.ok (), webAfter hostPort out) := by
  refine Prod.ext ?_ rfl
  cases h : ((allocateWebuiPorts (withWebuiPorts (showing out)) (some (webBefore hostPort))).run
      (webWorld hostPort)).1 with
  | ok _ => rfl
  | error e =>
    rw [h] at hok
    cases hok

theorem range_webTopo : parsePortRange webTopo.webuiPorts.portRange = .ok (8443, 8999) := by
  rfl

/-- Another lab publishes a port, and two in a range. -/
def otherLab : String :=
  "clab-dnlab-other-x\t127.0.0.1:8443->443/tcp, 127.0.0.1:8500-8501->8500-8501/tcp"

/-- The new device gets the lowest port that is free, between the port of another lab and the one
    that the old device keeps; the hidden ports are further up. -/
theorem allocateWebuiPorts_sticky_iff_web :
    Allocated webTopo.webuiWishlist.items 8443 8999
        (portsInUse "127.0.0.1" ⟨0, otherLab, ""⟩ ++ [8443, 8500, 8501])
        (entries (webAfter 8445 otherLab).state.webuiAllocations.items) ∧
      Sticky (some (webBefore 8445)) 8443 8999 [8443, 8500, 8501]
        (entries (webAfter 8445 otherLab).state.webuiAllocations.items) := by
  have hshown : portsInUse "127.0.0.1" ⟨0, otherLab, ""⟩ = [8443] := by decide +kernel
  have hhidden : Pool.hidden 8443 8999 [8443] [8443, 8500, 8501] = [8500, 8501] := by decide
  have hhints : hints (some (webBefore 8445)) webTopo.webuiWishlist.items = [none, some 8445] := by
    decide +kernel
  refine (allocateWebuiPorts_sticky_iff (showing otherLab) ⟨0, otherLab, ""⟩ (fun _ => rfl)
    (some (webBefore 8445)) [8443, 8500, 8501] (webWorld 8445) (webAfter 8445 otherLab) 8443 8999
    range_webTopo rfl (run_webWorld (by decide +kernel))).2 ?_
  have hwishes : wishes (some (webBefore 8445)) 8443 8999 [8443, 8500, 8501]
      webTopo.webuiWishlist.items = [none, some 8445] := by decide +kernel
  have hcfg : hiddenPorts (webWorld 8445).topo.webuiPorts ⟨0, otherLab, ""⟩ 8443 8999
      [8443, 8500, 8501] = [8500, 8501] := (congrArg (Pool.hidden 8443 8999 · _) hshown).trans hhidden
  rw [hcfg, show (webWorld 8445).topo.webuiWishlist.items = webTopo.webuiWishlist.items from rfl,
    show (webWorld 8445).topo.webuiPorts.bindIp = "127.0.0.1" from rfl, hshown, hhints, hwishes]
  refine ⟨fun p hp => ?_, fun p hp => ?_, by decide, by decide, trivial⟩
  · obtain rfl : p = 8445 := by simpa using hp
    decide
  · have hlt : 8444 < p := by
      rcases hp with hp | hp
      · obtain rfl : p = 8445 := by simpa using hp
        decide
      · rcases List.mem_pair.1 hp with rfl | rfl <;> decide
    refine Finset.card_pos.2 ⟨8444, Finset.mem_filter.2 ⟨Finset.mem_Ico.2 ⟨by decide, hlt⟩, ?_⟩⟩
    decide

/-- Another lab publishes two ports in a range. -/
def rangeOnly : String := "clab-dnlab-other-x\t127.0.0.1:8443-8444->8443-8444/tcp"

/-- The new device gets the port of the old one, which moves on although nobody else uses it; and it
    gets a port that another lab publishes in a range. -/
theorem not_sticky_web :
    ((allocateWebuiPorts (withWebuiPorts (showing "")) (some (webBefore 8443))).run (webWorld 8443) =
        (.ok (), webAfter 8443 "") ∧
      ¬Sticky (some (webBefore 8443)) 8443 8999 []
        (entries (webAfter 8443 "").state.webuiAllocations.items)) ∧
    (allocateWebuiPorts (withWebuiPorts (showing rangeOnly)) (some (webBefore 8500))).run
          (webWorld 8500) = (.ok (), webAfter 8500 rangeOnly) ∧
      ¬Allocated webTopo.webuiWishlist.items 8443 8999 [8443, 8444]
        (entries (webAfter 8500 rangeOnly).state.webuiAllocations.items) := by
  refine ⟨⟨run_webWorld (by decide +kernel), fun h => ?_⟩, run_webWorld (by decide +kernel),
    fun h => ?_⟩
  · have hentries : entries (webAfter 8443 "").state.webuiAllocations.items =
        [("r1", ⟨443, 8443, "127.0.0.1", "tcp"⟩), ("r2", ⟨443, 8444, "127.0.0.1", "tcp"⟩)] := by
      decide +kernel
    have hmoved := h ("r2", ⟨443, 8444, "127.0.0.1", "tcp"⟩) (by rw [hentries]; simp) 8443
      (by decide +kernel) (by decide) (by decide) (by simp)
    exact absurd hmoved (by decide)
  · have hentries : entries (webAfter 8500 rangeOnly).state.webuiAllocations.items =
        [("r1", ⟨443, 8443, "127.0.0.1", "tcp"⟩), ("r2", ⟨443, 8500, "127.0.0.1", "tcp"⟩)] := by
      decide +kernel
    exact h.unused ("r1", ⟨443, 8443, "127.0.0.1", "tcp"⟩) (by rw [hentries]; simp) (by simp)

end Dnlab.Deploy
