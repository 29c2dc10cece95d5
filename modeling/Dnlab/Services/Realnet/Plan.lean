import Dnlab.Services.Realnet.Commands
import Mathlib.Data.List.Flatten

/-!
# The commands of a run

A run of `setup_bridges` performs a list of commands that depends on the
topology only (`plan`). It ends normally only if the addresses are known and
the hosts accept all of the commands; and then it does, if the hosts refuse
nothing else (`does_setupBridges`).

The names of the interfaces have five characters of the lab and of a network,
and what room is left in fifteen of a worker (`peerIface_inj`).
-/

namespace Dnlab.Realnet

open Naming (kind kind_append)

/-! ## The commands of a run -/

/-- The hosts refuse nothing but a second tunnel with a number. -/
def Machines.Obey {ρ : Type} (M : Machines ρ) : Prop :=
  ∀ host cmd env, (M.refuses host cmd env).1 = false

/-- A program that performs the commands `acts`, in this order, where `known` is found. It ends
    normally only if it finds that and the hosts accept the commands, and then they obey it. -/
structure Does {ρ α : Type} (M : Machines ρ) (known : Prop) (acts : List Act)
    (p : Prog (Hosts ρ) Err α) : Prop where
  only : ∀ {s a s'}, p.run s = (.ok a, s') →
    known ∧ AllAccepted acts s.net ∧ s'.net = acts.foldl Act.apply s.net
  ends : M.Obey → ∀ s, known → AllAccepted acts s.net → ∃ a s', p.run s = (.ok a, s')

namespace Does

variable {ρ α β : Type} {M : Machines ρ} {known known' : Prop} {acts acts' : List Act}

theorem congr {p : Prog (Hosts ρ) Err α} (hp : Does M known acts p) (h : known ↔ known') :
    Does M known' acts p :=
  (propext h) ▸ hp

theorem pure (a : α) : Does M True [] (Pure.pure a : Prog (Hosts ρ) Err α) where
  only h := by
    cases h
    exact ⟨trivial, trivial, rfl⟩
  ends _ s _ _ := ⟨a, s, rfl⟩

theorem bind {p : Prog (Hosts ρ) Err β} {f : β → Prog (Hosts ρ) Err α} (hp : Does M known acts p)
    (hf : ∀ b, Does M known' acts' (f b)) : Does M (known ∧ known') (acts ++ acts') (p >>= f) where
  only h := by
    obtain ⟨b, s₁, h₁, h⟩ := Prog.run_bind_eq_ok h
    obtain ⟨hknown, hacc, hnet⟩ := hp.only h₁
    obtain ⟨hknown', hacc', hnet'⟩ := (hf b).only h
    rw [allAccepted_append, List.foldl_append, ← hnet]
    exact ⟨⟨hknown, hknown'⟩, ⟨hacc, hacc'⟩, hnet'⟩
  ends hobey s hknown hacc := by
    obtain ⟨hacc, hacc'⟩ := allAccepted_append.1 hacc
    obtain ⟨b, s₁, h₁⟩ := hp.ends hobey s hknown.1 hacc
    rw [← (hp.only h₁).2.2] at hacc'
    obtain ⟨a, s', h⟩ := (hf b).ends hobey s₁ hknown.2 hacc'
    exact ⟨a, s', (Prog.run_bind_ok h₁).trans h⟩

/-- A value that is returned is of no account. -/
theorem map {p : Prog (Hosts ρ) Err β} (hp : Does M known acts p) (f : β → α) :
    Does M known acts (p >>= fun b => Pure.pure (f b)) := by
  have h := (bind hp fun b => pure (f b)).congr (iff_of_eq (and_true known))
  rwa [List.append_nil] at h

theorem lookup_bind {d : Dict String β} {key : String} {f : β → Prog (Hosts ρ) Err α}
    (hf : ∀ v, d.get? key = some v → Does M known acts (f v)) :
    Does M (d.contains key = true ∧ known) acts (.ofExcept (lookup d key) >>= f) := by
  rw [Dict.contains, lookup]
  cases hget : d.get? key with
  | none =>
    refine ⟨fun h => ?_, fun _ _ h => ?_⟩
    · cases h
    · cases h.1
  | some v => exact (hf v hget).congr (by simp)

/-- A command that is not checked is one for the firewall, which is not among the interfaces. -/
theorem apply_of_unchecked {a : Act} (h : a.2.checked = false) (net : Net) :
    a.2.succeeds (net a.1) = true ∧ a.apply net = net := by
  obtain ⟨host, cmd⟩ := a
  cases cmd with
  | allowForwarding b => exact ⟨rfl, Function.update_eq_self host net⟩
  | ensureBridge b => exact nomatch h
  | replaceVxlan i t b => exact nomatch h

/-- A host that refuses nothing of its own fails only where it does not accept the command. -/
theorem exec (address : String) (a : Act) : Does M True [a] (Realnet.exec M address a) where
  only {s u s'} h := by
    rw [Prog.run, Realnet.exec] at h
    dsimp only at h
    split at h
    · cases h
    · rename_i hdone
      cases h
      cases hc : a.2.checked with
      | false =>
        obtain ⟨hacc, hnet⟩ := apply_of_unchecked hc s.net
        refine ⟨trivial, ⟨hacc, trivial⟩, ?_⟩
        rw [List.foldl_cons, List.foldl_nil, hnet]
        exact ite_self _
      | true =>
        have hyes : (M.refuses a.1 a.2 s.env).1 = false ∧ a.2.succeeds (s.net a.1) = true := by
          simpa [hc] using hdone
        refine ⟨trivial, ⟨hyes.2, trivial⟩, ?_⟩
        rw [if_neg (by simp [hyes.1])]
        rfl
  ends hobey s _ hacc := by
    have hno := hobey a.1 a.2 s.env
    refine ⟨(), ⟨(M.refuses a.1 a.2 s.env).2, a.apply s.net⟩, ?_⟩
    rw [Prog.run, Realnet.exec]
    simp [hno, hacc.1]

theorem forEach {l : List β} {f : β → Prog (Hosts ρ) Err Unit} {g : β → List Act} {k : β → Prop}
    (hf : ∀ b, Does M (k b) (g b) (f b)) :
    Does M (∀ b ∈ l, k b) (l.flatMap g) (Prog.forEach l f) := by
  induction l with
  | nil => exact (pure ()).congr (iff_of_true trivial (by simp))
  | cons b l ih => exact (bind (hf b) fun _ => ih).congr (by simp)

theorem mapEach {l : List β} {f : β → Prog (Hosts ρ) Err α} {g : β → List Act} {k : β → Prop}
    (hf : ∀ b, Does M (k b) (g b) (f b)) :
    Does M (∀ b ∈ l, k b) (l.flatMap g) (Prog.mapEach l f) := by
  induction l with
  | nil => exact (pure []).congr (iff_of_true trivial (by simp))
  | cons b l ih => exact (bind (hf b) fun a => ih.map (a :: ·)).congr (by simp)

end Does

section Plan

variable {ρ : Type} (M : Machines ρ) (topo : DistributedTopology) (underlay : Dict String String)

/-- The address of a host. -/
def addressOf (host : String) : String := underlay.getD host ""

/-- The tunnel from a worker to the master. -/
def toMaster (realNet : String × ℕ) (host : String) : Tunnel where
  vni := Ids.realnetVxlanId topo.name realNet.2
  remote := addressOf underlay "master"
  localIp := addressOf underlay host
  dev := topo.underlayIface

/-- The tunnel from the master to a worker. -/
def toWorker (realNet : String × ℕ) (host : String) : Tunnel where
  vni := Ids.realnetVxlanId topo.name realNet.2
  remote := addressOf underlay host
  localIp := addressOf underlay "master"
  dev := topo.underlayIface

/-- The commands for one worker. -/
def workerActs (realNet : String × ℕ) (host : String) : List Act :=
  let bridge := Naming.realnetBridgeName topo.name realNet.1
  [(host, .replaceVxlan (Naming.realnetVxlanIface topo.name realNet.1)
      (toMaster topo underlay realNet host) bridge),
    ("master", .replaceVxlan (peerIface topo.name realNet.1 host)
      (toWorker topo underlay realNet host) bridge)]

/-- The commands for the bridge on one host. -/
def bridgeActs (realNet : String × ℕ) (host : String) : List Act :=
  let bridge := Naming.realnetBridgeName topo.name realNet.1
  [(host, .ensureBridge bridge), (host, .allowForwarding bridge)]

/-- The commands for one real network. -/
def netActs (realNet : String × ℕ) : List Act :=
  if participatingHosts topo realNet.1 = [] then []
  else (M.inOrder ("master" :: workers topo realNet.1)).flatMap (bridgeActs topo realNet) ++
    (sorted (workers topo realNet.1)).flatMap (workerActs topo underlay realNet)

/-- The commands of `setup_bridges`. -/
def plan : List Act := topo.realNets.keys.zipIdx.flatMap (netActs M topo underlay)

/-- What is looked up for one real network. -/
def KnownFor (clients : Clients) (realNet : String) : Prop :=
  participatingHosts topo realNet ≠ [] → clients.contains "master" = true ∧
    ∀ h ∈ workers topo realNet, clients.contains h = true ∧ underlay.contains h = true

/-- What `setup_bridges` looks up. -/
def Known (clients : Clients) : Prop :=
  underlay.contains "master" = true ∧
    ∀ e ∈ topo.realNets.keys.zipIdx, KnownFor topo underlay clients e.1

variable {M topo underlay}

theorem addressOf_of_get? {host ip : String} (h : underlay.get? host = some ip) :
    addressOf underlay host = ip := by
  rw [addressOf, Dict.getD, h, Option.getD_some]

theorem does_connect {clients : Clients} {realNet : String × ℕ} {host masterIp : String}
    (hmaster : addressOf underlay "master" = masterIp) :
    Does M (clients.contains host = true ∧ underlay.contains host = true ∧
        clients.contains "master" = true)
      (workerActs topo underlay realNet host)
      (connect M topo clients underlay masterIp (Ids.realnetVxlanId topo.name realNet.2) realNet.1
        host) := by
  refine .lookup_bind fun client _ => .lookup_bind fun hostIp hip => ?_
  rw [workerActs, toMaster, toWorker, hmaster, addressOf_of_get? hip]
  refine (Does.bind (.exec _ _) fun _ => .lookup_bind fun master _ => .exec _ _).congr ?_
  simp

theorem mem_sorted {names : List String} {name : String} : name ∈ sorted names ↔ name ∈ names :=
  List.mem_insertionSort _

theorem does_setupBridge {clients : Clients} {realNet : String × ℕ} {masterIp : String}
    (hmaster : addressOf underlay "master" = masterIp) :
    Does M (KnownFor topo underlay clients realNet.1) (netActs M topo underlay realNet)
      (setupBridge M topo clients underlay masterIp realNet.2 realNet.1) := by
  rw [netActs, setupBridge]
  split
  · rename_i hnone
    exact (Does.pure none).congr (iff_of_true trivial fun h => absurd hnone h)
  · rename_i hsome
    have hbridge (host : String) : Does M (clients.contains host = true)
        (bridgeActs topo realNet host) (do
          let client ← .ofExcept (lookup clients host)
          exec M client.host (host, .ensureBridge (Naming.realnetBridgeName topo.name realNet.1))
          exec M client.host
            (host, .allowForwarding (Naming.realnetBridgeName topo.name realNet.1))) :=
      (Does.lookup_bind fun client _ => .bind (.exec _ _) fun _ => .exec _ _).congr (by simp)
    refine (Does.bind (.forEach hbridge) fun _ =>
      .map (.forEach fun host => does_connect hmaster) fun _ => _).congr ?_
    simp only [(M.inOrder_perm _).mem_iff, mem_sorted, List.forall_mem_cons, KnownFor]
    constructor
    · rintro ⟨⟨hclient, -⟩, hhosts⟩ -
      exact ⟨hclient, fun h hh => ⟨(hhosts h hh).1, (hhosts h hh).2.1⟩⟩
    · intro h
      obtain ⟨hclient, hhosts⟩ := h hsome
      exact ⟨⟨hclient, fun h hh => (hhosts h hh).1⟩,
        fun h hh => ⟨(hhosts h hh).1, (hhosts h hh).2, hclient⟩⟩

theorem does_setupBridges {clients : Clients} :
    Does M (Known topo underlay clients) (plan M topo underlay)
      (setupBridges M topo clients underlay) := by
  refine .lookup_bind fun masterIp hmaster => ?_
  exact .map (.mapEach fun e => does_setupBridge (addressOf_of_get? hmaster)) (·.filterMap id)

end Plan

/-! ## The names -/

section Names

variable {lab rn rn' host host' : String}

theorem length_sanitizedShort_le (name : String) :
    (Naming.sanitizedShort name).toList.length ≤ 5 :=
  Text.length_first_le 5 _

theorem dash_notMem_sanitizedShort (name : String) : '-' ∉ (Naming.sanitizedShort name).toList := by
  intro h
  rw [Naming.sanitizedShort, Text.toList_first] at h
  simpa [Text.keep] using List.mem_of_mem_take h

theorem realnetVxlanIface_eq (lab rn : String) : Naming.realnetVxlanIface lab rn =
    "vx" ++ Naming.sanitizedShort lab ++ Naming.sanitizedShort rn := by
  have hlab := length_sanitizedShort_le lab
  have hrn := length_sanitizedShort_le rn
  refine Text.first_of_length_le ?_
  rw [String.toList_append, String.toList_append, List.length_append, List.length_append]
  change 2 + _ + _ ≤ 15
  omega

theorem realnetBridgeName_eq (lab rn : String) : Naming.realnetBridgeName lab rn =
    "br" ++ Text.first 5 (Naming.sanitizeLabName lab) ++ Naming.sanitizedShort rn := by
  have hlab := Text.length_first_le 5 (Naming.sanitizeLabName lab)
  have hrn := length_sanitizedShort_le rn
  refine Text.first_of_length_le ?_
  rw [String.toList_append, String.toList_append, List.length_append, List.length_append]
  change 2 + _ + _ ≤ 15
  omega

theorem realnetVxlanIface_inj : Naming.realnetVxlanIface lab rn = Naming.realnetVxlanIface lab rn' ↔
    Naming.sanitizedShort rn = Naming.sanitizedShort rn' := by
  rw [realnetVxlanIface_eq, realnetVxlanIface_eq, Text.append_left_inj]

theorem realnetBridgeName_inj : Naming.realnetBridgeName lab rn = Naming.realnetBridgeName lab rn' ↔
    Naming.sanitizedShort rn = Naming.sanitizedShort rn' := by
  rw [realnetBridgeName_eq, realnetBridgeName_eq, Text.append_left_inj]

theorem kind_realnetVxlanIface (lab rn : String) :
    kind (Naming.realnetVxlanIface lab rn) = ['v', 'x'] := by
  rw [realnetVxlanIface_eq, String.append_assoc, kind_append (by decide)]
  decide

theorem kind_realnetBridgeName (lab rn : String) :
    kind (Naming.realnetBridgeName lab rn) = ['b', 'r'] := by
  rw [realnetBridgeName_eq, String.append_assoc, kind_append (by decide)]
  decide

theorem length_realnetVxlanIface_le (lab rn : String) :
    (Naming.realnetVxlanIface lab rn).toList.length ≤ 12 := by
  have hlab := length_sanitizedShort_le lab
  have hrn := length_sanitizedShort_le rn
  rw [realnetVxlanIface_eq, String.toList_append, String.toList_append, List.length_append,
    List.length_append]
  change 2 + _ + _ ≤ 12
  omega

theorem dash_notMem_realnetVxlanIface (lab rn : String) :
    '-' ∉ (Naming.realnetVxlanIface lab rn).toList := by
  rw [realnetVxlanIface_eq, String.toList_append, String.toList_append, List.mem_append,
    List.mem_append]
  rintro ((h | h) | h)
  · exact absurd h (by decide)
  · exact dash_notMem_sanitizedShort lab h
  · exact dash_notMem_sanitizedShort rn h

/-- What is left of the name of a worker in that of its interface. -/
def hostPart (lab rn host : String) : String :=
  Text.first (14 - (Naming.realnetVxlanIface lab rn).toList.length) host

theorem peerIface_eq (lab rn host : String) :
    peerIface lab rn host = Naming.realnetVxlanIface lab rn ++ "-" ++ hostPart lab rn host := by
  have hlen := length_realnetVxlanIface_le lab rn
  have hdash : (Naming.realnetVxlanIface lab rn ++ "-").toList.length =
      (Naming.realnetVxlanIface lab rn).toList.length + 1 := by
    rw [String.toList_append, List.length_append]
    rfl
  have hrest : Naming.maxIfaceLen - ((Naming.realnetVxlanIface lab rn).toList.length + 1) =
      14 - (Naming.realnetVxlanIface lab rn).toList.length := by
    rw [Naming.maxIfaceLen]
    omega
  rw [peerIface, Text.first_append (by rw [hdash, Naming.maxIfaceLen]; omega), hdash, hrest,
    hostPart]

/-- The interfaces towards two workers have the same name if and only if the names of their networks
    are cut to the same, and what is left of their own names is the same. -/
theorem peerIface_inj : peerIface lab rn host = peerIface lab rn' host' ↔
    Naming.sanitizedShort rn = Naming.sanitizedShort rn' ∧
      hostPart lab rn host = hostPart lab rn' host' := by
  have hlist (rn host : String) : (peerIface lab rn host).toList =
      (Naming.realnetVxlanIface lab rn).toList ++ '-' :: (hostPart lab rn host).toList := by
    rw [peerIface_eq, String.toList_append, String.toList_append, List.append_assoc]
    rfl
  rw [← String.toList_inj, hlist, hlist, Text.append_sep_inj (dash_notMem_realnetVxlanIface lab rn)
    (dash_notMem_realnetVxlanIface lab rn'), String.toList_inj, String.toList_inj,
    realnetVxlanIface_inj]

theorem kind_peerIface (lab rn host : String) : kind (peerIface lab rn host) = ['v', 'x'] := by
  rw [peerIface_eq, realnetVxlanIface_eq, String.append_assoc, String.append_assoc,
    String.append_assoc, kind_append (by decide)]
  decide

end Names

end Dnlab.Realnet
