import Dnlab.Lib.Compensation
import Dnlab.Services.RuntimeLinks
import Mathlib.Data.Finset.Insert
import Mathlib.Data.Finset.Erase

/-!
# The network of the hosts

What the commands of a link do to the hosts: interfaces with their bridges,
forwarding rules, carriers, and the waiters that raise a carrier once the
controller in a device is up. What a command leaves when it is followed by one
that undoes another is again a command, or nothing (`left`).
-/

namespace Dnlab.RuntimeLinks

/-- A host and a name on it. -/
abbrev OnHost := String × String

/-- A host, a container and an interface of it. -/
abbrev Port := String × String × String

/-- An interface of a host: the bridge that it is attached to, and whether it is set up. -/
structure Iface where
  master : Option String := none
  up : Bool := false
  deriving DecidableEq

namespace Iface

def attach (b : String) (l : Iface) : Iface := { l with master := some b }

def detach (l : Iface) : Iface := { l with master := none }

def setUp (l : Iface) : Iface := { l with up := true }

/-- The bridge `b` is gone. -/
def release (b : String) (l : Iface) : Iface := if l.master = some b then l.detach else l

@[simp] theorem setUp_detach (l : Iface) : l.detach.setUp = l.setUp.detach := rfl

theorem release_setUp (b : String) (l : Iface) : l.setUp.release b = (l.release b).setUp := by
  rw [release, release, setUp]
  split <;> rfl

theorem release_detach (b : String) (l : Iface) : l.detach.release b = (l.release b).detach := by
  rw [release, if_neg (by simp [detach]), release]
  split <;> rfl

/-- What was attached to a bridge that is gone is detached. -/
theorem release_attach_self (b : String) (l : Iface) :
    (l.attach b).release b = (l.release b).detach := by
  rw [release, release, attach, if_pos rfl]
  split <;> rfl

theorem release_attach_of_ne {b c : String} (h : c ≠ b) (l : Iface) :
    (l.attach c).release b = (l.release b).attach c := by
  rw [release, release, attach, if_neg fun heq => h (Option.some.inj heq)]
  split <;> rfl

theorem release_comm (b c : String) (l : Iface) :
    (l.release b).release c = (l.release c).release b := by
  simp only [release, detach]
  split_ifs <;> simp_all

theorem release_release (b : String) (l : Iface) : (l.release b).release b = l.release b := by
  simp only [release, detach]
  split_ifs <;> simp_all

end Iface

/-- The state of the hosts that a link changes. -/
structure Net where
  links : OnHost → Option Iface
  forwarding : Finset OnHost
  carriers : Finset Port
  waiting : Finset Port

namespace Net

@[ext] theorem ext' {n m : Net} (hlinks : n.links = m.links)
    (hforwarding : n.forwarding = m.forwarding) (hcarriers : n.carriers = m.carriers)
    (hwaiting : n.waiting = m.waiting) : n = m := by
  cases n
  cases m
  simp_all

/-- There is nothing on the hosts. -/
def bare : Net := ⟨fun _ => none, ∅, ∅, ∅⟩

variable (n : Net)

/-- A change of one interface. -/
def edit (p : OnHost) (f : Option Iface → Option Iface) : Net :=
  { n with links := fun q => if q = p then f (n.links q) else n.links q }

/-- `ip link add`, unless there is one of that name. -/
def add (p : OnHost) (l : Iface) : Net := n.edit p fun o => some (o.getD l)

/-- `ip link delete`: what is attached to it is detached. -/
def drop (p : OnHost) : Net :=
  { n with
    links := fun q => if q = p then none
      else if q.1 = p.1 then (n.links q).map (Iface.release p.2) else n.links q }

/-- What a command does that succeeds. The altname of a tunnel stands for the tunnel, which is up when
    it is made. -/
def perform (host : String) : Cmd → Net
  | .bridgeAdd b => n.add (host, b) {}
  | .vxlanCreate i _ _ => n.add (host, vxlanAltname i) { up := true }
  | .linkUp i => n.edit (host, i) (Option.map Iface.setUp)
  | .linkMaster i b => n.edit (host, i) (Option.map (Iface.attach b))
  | .linkNoMaster i => n.edit (host, i) (Option.map Iface.detach)
  | .linkDelete i => n.drop (host, i)
  | .forwardingAllow b => { n with forwarding := insert (host, b) n.forwarding }
  | .forwardingRemove b => { n with forwarding := n.forwarding.erase (host, b) }
  | .linkctl c i state =>
    if state = "up" then { n with carriers := insert (host, c, i) n.carriers }
    else { n with carriers := n.carriers.erase (host, c, i) }
  | .linkctlWhenReady c i => { n with waiting := insert (host, c, i) n.waiting }
  | _ => n

end Net

/-- A command that was performed on a host. -/
abbrev Deed := String × Cmd

namespace Net

/-- What a deed does. -/
def act (d : Deed) (n : Net) : Net := n.perform d.1 d.2

/-- The network after some deeds. -/
abbrev after (n : Net) (deeds : List Deed) : Net := Compensation.after act n deeds

theorem after_append (n : Net) (deeds deeds' : List Deed) :
    n.after (deeds ++ deeds') = (n.after deeds).after deeds' :=
  Compensation.after_append deeds'

/-- A deed would change nothing. -/
abbrev Idle (n : Net) (d : Deed) : Prop := Compensation.Idle act n d

section Idle

variable {n : Net} {host : String}

theorem edit_eq_self_iff {p : OnHost} {f : Option Iface → Option Iface} :
    n.edit p f = n ↔ f (n.links p) = n.links p := by
  constructor
  · intro h
    have hlinks := congrFun (congrArg links h) p
    dsimp only [edit] at hlinks
    rwa [if_pos rfl] at hlinks
  · intro h
    refine Net.ext' (funext fun q => ?_) rfl rfl rfl
    dsimp only [edit]
    split
    · rename_i hq
      rw [hq, h]
    · rfl

/-- What a deed brings about is so already. -/
def Already (n : Net) : Deed → Prop
  | (host, .bridgeAdd b) => n.links (host, b) ≠ none
  | (host, .vxlanCreate i _ _) => n.links (host, vxlanAltname i) ≠ none
  | (host, .linkUp i) => ∀ l, n.links (host, i) = some l → l.up = true
  | (host, .linkMaster i b) => ∀ l, n.links (host, i) = some l → l.master = some b
  | (host, .linkNoMaster i) => ∀ l, n.links (host, i) = some l → l.master = none
  | (host, .linkDelete i) =>
    n.links (host, i) = none ∧ ∀ e l, n.links (host, e) = some l → l.master ≠ some i
  | (host, .forwardingAllow b) => (host, b) ∈ n.forwarding
  | (host, .forwardingRemove b) => (host, b) ∉ n.forwarding
  | (host, .linkctl c i state) =>
    if state = "up" then (host, c, i) ∈ n.carriers else (host, c, i) ∉ n.carriers
  | (host, .linkctlWhenReady c i) => (host, c, i) ∈ n.waiting
  | _ => True

theorem add_eq_self_iff {p : OnHost} {l : Iface} : n.add p l = n ↔ n.links p ≠ none := by
  rw [add, edit_eq_self_iff]
  cases n.links p <;> simp

theorem edit_map_eq_self_iff {p : OnHost} {f : Iface → Iface} :
    n.edit p (Option.map f) = n ↔ ∀ l, n.links p = some l → f l = l := by
  rw [edit_eq_self_iff]
  cases n.links p <;> simp

theorem drop_eq_self_iff {i : String} : n.drop (host, i) = n ↔
    n.links (host, i) = none ∧ ∀ e l, n.links (host, e) = some l → l.master ≠ some i := by
  constructor
  · intro h
    have hlinks (q : OnHost) : (if q = (host, i) then none
        else if q.1 = host then (n.links q).map (Iface.release i) else n.links q) = n.links q :=
      congrFun (congrArg links h) q
    have hnone := hlinks (host, i)
    rw [if_pos rfl] at hnone
    refine ⟨hnone.symm, fun e l hl hmaster => ?_⟩
    have hrelease := hlinks (host, e)
    rw [hl] at hrelease
    split_ifs at hrelease with _ hhost
    · -- It would have been detached.
      rw [Option.map_some, Option.some_inj, Iface.release, if_pos hmaster] at hrelease
      have hdetached := congrArg Iface.master hrelease
      rw [hmaster] at hdetached
      cases hdetached
    · exact hhost rfl
  · rintro ⟨hnone, hfree⟩
    refine Net.ext' (funext fun q => ?_) rfl rfl rfl
    show (if q = (host, i) then none
      else if q.1 = host then (n.links q).map (Iface.release i) else n.links q) = n.links q
    split_ifs with hq hhost
    · rw [hq, hnone]
    · obtain ⟨_, e⟩ := q
      dsimp only at hhost
      subst hhost
      rcases hl : n.links (_, e) with _ | l
      · rfl
      · rw [Option.map_some, Iface.release, if_neg (hfree e l hl)]
    · rfl

theorem forwarding_eq_self_iff {f : Finset OnHost} :
    ({ n with forwarding := f } : Net) = n ↔ f = n.forwarding :=
  ⟨congrArg forwarding, fun h => Net.ext' rfl h rfl rfl⟩

theorem carriers_eq_self_iff {c : Finset Port} :
    ({ n with carriers := c } : Net) = n ↔ c = n.carriers :=
  ⟨congrArg carriers, fun h => Net.ext' rfl rfl h rfl⟩

theorem waiting_eq_self_iff {w : Finset Port} :
    ({ n with waiting := w } : Net) = n ↔ w = n.waiting :=
  ⟨congrArg waiting, fun h => Net.ext' rfl rfl rfl h⟩

theorem idle_iff {d : Deed} : n.Idle d ↔ n.Already d := by
  obtain ⟨host, cmd⟩ := d
  show n.perform host cmd = n ↔ _
  -- Each command changes one interface or one set.
  cases cmd with
  | bridgeAdd b => exact add_eq_self_iff
  | vxlanCreate i remote id => exact add_eq_self_iff
  | linkUp i =>
    refine edit_map_eq_self_iff.trans (forall₂_congr fun l _ => ?_)
    rcases l with ⟨master, _ | _⟩ <;> simp [Iface.setUp]
  | linkMaster i b =>
    refine edit_map_eq_self_iff.trans (forall₂_congr fun l _ => ?_)
    rcases l with ⟨master, up⟩
    simp [Iface.attach, eq_comm]
  | linkNoMaster i =>
    refine edit_map_eq_self_iff.trans (forall₂_congr fun l _ => ?_)
    rcases l with ⟨master, up⟩
    simp [Iface.detach, eq_comm]
  | linkDelete i => exact drop_eq_self_iff
  | forwardingAllow b => exact forwarding_eq_self_iff.trans Finset.insert_eq_self
  | forwardingRemove b => exact forwarding_eq_self_iff.trans Finset.erase_eq_self
  | linkctl c i state =>
    rw [perform, Already]
    split_ifs
    · exact carriers_eq_self_iff.trans Finset.insert_eq_self
    · exact carriers_eq_self_iff.trans Finset.erase_eq_self
  | linkctlWhenReady c i => exact waiting_eq_self_iff.trans Finset.insert_eq_self
  | _ => exact iff_of_true rfl trivial

end Idle

/-! ## Interfaces -/

variable {n : Net} {p q : OnHost} {f g : Option Iface → Option Iface}

theorem edit_comm_of_ne (h : p ≠ q) : (n.edit p f).edit q g = (n.edit q g).edit p f := by
  refine Net.ext' (funext fun r => ?_) rfl rfl rfl
  dsimp only [edit]
  split_ifs with hq hp
  · exact absurd (hp.symm.trans hq) h
  all_goals rfl

theorem edit_edit (h : ∀ o, g (f o) = f (g o)) : (n.edit p f).edit p g = (n.edit p g).edit p f := by
  refine Net.ext' (funext fun r => ?_) rfl rfl rfl
  dsimp only [edit]
  split_ifs
  · exact h _
  · rfl

theorem edit_comm (h : ∀ o, g (f o) = f (g o)) : (n.edit p f).edit q g = (n.edit q g).edit p f := by
  by_cases hpq : p = q
  · subst hpq
    exact edit_edit h
  · exact edit_comm_of_ne hpq

/-- A change that is written over. -/
theorem edit_over (h : ∀ o, g (f o) = g o) : (n.edit p f).edit p g = n.edit p g := by
  refine Net.ext' (funext fun r => ?_) rfl rfl rfl
  dsimp only [edit]
  split_ifs
  · exact h _
  · rfl

theorem drop_edit_self : (n.edit p f).drop p = n.drop p := by
  refine Net.ext' (funext fun r => ?_) rfl rfl rfl
  dsimp only [edit, drop]
  split_ifs <;> rfl

theorem edit_drop_self (h : f none = none) : (n.drop p).edit p f = n.drop p := by
  refine Net.ext' (funext fun r => ?_) rfl rfl rfl
  dsimp only [edit, drop]
  split_ifs
  · exact h
  all_goals rfl

/-- A change before an interface is deleted, and what that makes of it. -/
theorem drop_edit (h : p ≠ q) (hhere : q.1 = p.1 →
      ∀ o, (f o).map (Iface.release p.2) = g (o.map (Iface.release p.2)))
    (hthere : q.1 ≠ p.1 → f = g) : (n.edit q f).drop p = (n.drop p).edit q g := by
  refine Net.ext' (funext fun r => ?_) rfl rfl rfl
  dsimp only [edit, drop]
  split_ifs with hp hq hhost hq hq
  · exact absurd (hp.symm.trans hq) h
  · rfl
  · subst hq
    exact hhere hhost _
  · rfl
  · subst hq
    rw [hthere hhost]
  · rfl

theorem drop_comm : (n.drop p).drop q = (n.drop q).drop p := by
  refine Net.ext' (funext fun r => ?_) rfl rfl rfl
  dsimp only [drop]
  split_ifs <;> simp only [Option.map_none, Option.map_map]
  · refine congrArg (Option.map · _) (funext fun l => ?_)
    exact Iface.release_comm _ _ _

theorem drop_drop : (n.drop p).drop p = n.drop p := by
  refine Net.ext' (funext fun r => ?_) rfl rfl rfl
  dsimp only [drop]
  split_ifs
  · rfl
  · rw [Option.map_map]
    exact congrArg (Option.map · _) (funext fun l => Iface.release_release _ _)
  · rfl

end Net

/-! ## What commands leave -/

/-- The commands that undo another one. -/
def undoes : Cmd → Bool
  | .linkDelete _ => true
  | .linkNoMaster _ => true
  | .forwardingRemove _ => true
  | .linkctl _ _ state => state ≠ "up"
  | _ => false

/-- The commands that make something, and what is left of them. -/
def makes : Cmd → Bool
  | .bridgeAdd _ => true
  | .vxlanCreate _ _ _ => true
  | .linkUp _ => true
  | .linkMaster _ _ => true
  | .linkNoMaster _ => true
  | .forwardingAllow _ => true
  | .linkctl _ _ state => state = "up"
  | .linkctlWhenReady _ _ => true
  | _ => false

/-- What is left of the second command after the first, on one host. -/
def leftOf : (undo made : Cmd) → Option Cmd
  | .linkDelete i, .bridgeAdd b => if b = i then none else some (.bridgeAdd b)
  | .linkDelete i, .vxlanCreate e remote id =>
    if vxlanAltname e = i then none else some (.vxlanCreate e remote id)
  | .linkDelete i, .linkUp e => if e = i then none else some (.linkUp e)
  | .linkDelete i, .linkNoMaster e => if e = i then none else some (.linkNoMaster e)
  | .linkDelete i, .linkMaster e b =>
    -- What was attached to a bridge that is deleted is detached.
    if e = i then none else if b = i then some (.linkNoMaster e) else some (.linkMaster e b)
  | .linkNoMaster i, .linkMaster e b => if e = i then none else some (.linkMaster e b)
  | .forwardingRemove i, .forwardingAllow b => if b = i then none else some (.forwardingAllow b)
  | .linkctl c i _, .linkctl c' i' state =>
    if c' = c ∧ i' = i then none else some (.linkctl c' i' state)
  | _, made => some made

/-- What is left of the second deed after the first. -/
def left (u d : Deed) : Option Deed :=
  if d.1 = u.1 then (leftOf u.2 d.2).map (d.1, ·) else some d

section Left

variable {u v d : Deed} {n : Net} {host : String}

theorem left_self (h : leftOf u.2 d.2 = some d.2) : left u d = some d := by
  rw [left, h]
  split <;> rfl

/-- Only what was attached to a bridge becomes another command when that is deleted. -/
theorem left_cases {d' : Deed} (h : left u d = some d') : d' = d ∨
    ∃ e b, d.2 = .linkMaster e b ∧ u = (d.1, .linkDelete b) ∧ d' = (d.1, .linkNoMaster e) := by
  rw [left] at h
  split at h
  · rename_i hhost
    obtain ⟨cmd, hcmd, rfl⟩ := Option.map_eq_some_iff.1 h
    obtain ⟨hostU, cmdU⟩ := u
    obtain ⟨hostD, cmdD⟩ := d
    dsimp only at hhost hcmd ⊢
    subst hhost
    rw [leftOf.eq_def] at hcmd
    split at hcmd
    case h_5 i e b =>
      split_ifs at hcmd with hname hbridge <;> cases hcmd
      · subst hbridge
        exact .inr ⟨e, b, rfl, rfl, rfl⟩
      · exact .inl rfl
    case h_9 =>
      cases hcmd
      exact .inl rfl
    all_goals
      split_ifs at hcmd
      cases hcmd
      exact .inl rfl
  · exact .inl (Option.some.inj h).symm

namespace Net

theorem drop_edit_same {p q : OnHost} {f : Option Iface → Option Iface} (h : p ≠ q)
    (hf : ∀ o b, (f o).map (Iface.release b) = f (o.map (Iface.release b))) :
    (n.edit q f).drop p = (n.drop p).edit q f :=
  drop_edit h (fun _ o => hf o _) fun _ => rfl

theorem release_getD (l : Iface) (hl : l.master = none) (o : Option Iface) (b : String) :
    (some (o.getD l)).map (Iface.release b) = some ((o.map (Iface.release b)).getD l) := by
  cases o with
  | none => simp [Iface.release, hl]
  | some l => rfl

theorem release_map {f : Iface → Iface} (h : ∀ b l, (f l).release b = f (l.release b))
    (o : Option Iface) (b : String) :
    (o.map f).map (Iface.release b) = (o.map (Iface.release b)).map f := by
  cases o with
  | none => rfl
  | some l => exact congrArg some (h b l)

theorem act_linkctl_down {c i state : String} (h : undoes (.linkctl c i state) = true) (n : Net) :
    act (host, .linkctl c i state) n = { n with carriers := n.carriers.erase (host, c, i) } :=
  if_neg (of_decide_eq_true h)

theorem act_linkctl_up {c i state : String} (h : makes (.linkctl c i state) = true) (n : Net) :
    act (host, .linkctl c i state) n = { n with carriers := insert (host, c, i) n.carriers } :=
  if_pos (of_decide_eq_true h)

/-- A carrier that is raised stays so when something else is undone. -/
theorem act_act_linkctl {c i state : String} (h : makes (.linkctl c i state) = true)
    (hleft : leftOf u.2 (.linkctl c i state) = some (.linkctl c i state))
    (hu : ∀ (n : Net) carriers, act u { n with carriers } = { act u n with carriers })
    (hcarriers : (act u n).carriers = n.carriers) :
    act u (act (host, .linkctl c i state) n) =
      after (act u n) (left u (host, .linkctl c i state)).toList := by
  have hdeed : left u (host, .linkctl c i state) = some (host, .linkctl c i state) := left_self hleft
  have hafter : act (host, .linkctl c i state) (act u n) = _ := act_linkctl_up h _
  rw [hcarriers] at hafter
  rw [hdeed, act_linkctl_up h, hu]
  exact hafter.symm

/-- A change of an interface is gone when that is deleted, and otherwise stays. -/
theorem act_linkDelete_edit {hostD i e : String} {cmd : Cmd} {f : Option Iface → Option Iface}
    (hact : ∀ n, act (hostD, cmd) n = n.edit (hostD, e) f)
    (hleft : leftOf (.linkDelete i) cmd = if e = i then none else some cmd)
    (hf : ∀ o b, (f o).map (Iface.release b) = f (o.map (Iface.release b))) :
    act (host, .linkDelete i) (act (hostD, cmd) n) =
      after (act (host, .linkDelete i) n) (left (host, .linkDelete i) (hostD, cmd)).toList := by
  rw [left, hleft, hact]
  dsimp only
  split_ifs with hhost hname
  · subst hhost hname
    exact drop_edit_self
  · exact (drop_edit_same (fun h => hname (Prod.mk.inj h).2.symm) hf).trans (hact _).symm
  · exact (drop_edit_same (fun h => hhost (Prod.mk.inj h).1.symm) hf).trans (hact _).symm

/-- What is left when an interface is deleted. -/
theorem act_linkDelete {i : String} (hd : makes d.2 = true) :
    act (host, .linkDelete i) (act d n) =
      after (act (host, .linkDelete i) n) (left (host, .linkDelete i) d).toList := by
  obtain ⟨hostD, cmd⟩ := d
  cases cmd with
  | bridgeAdd b => exact act_linkDelete_edit (fun _ => rfl) rfl fun o b => release_getD _ rfl o b
  | vxlanCreate e remote id =>
    exact act_linkDelete_edit (fun _ => rfl) rfl fun o b => release_getD _ rfl o b
  | linkUp e => exact act_linkDelete_edit (fun _ => rfl) rfl (release_map Iface.release_setUp)
  | linkNoMaster e => exact act_linkDelete_edit (fun _ => rfl) rfl (release_map Iface.release_detach)
  | linkMaster e b =>
    have hne (h : ¬(hostD = host ∧ e = i)) : (host, i) ≠ (hostD, e) := by
      rintro ⟨⟩
      exact h ⟨rfl, rfl⟩
    rw [left, leftOf]
    dsimp only
    split_ifs with hhost hname hbridge
    · subst hhost hname
      exact drop_edit_self
    · -- It is detached as the bridge goes.
      subst hhost hbridge
      refine drop_edit (hne fun h => hname h.2) (fun _ o => ?_) fun h => absurd rfl h
      cases o with
      | none => rfl
      | some l => exact congrArg some (Iface.release_attach_self b l)
    · refine drop_edit (hne fun h => hname h.2) (fun _ o => ?_) fun _ => rfl
      cases o with
      | none => rfl
      | some l => exact congrArg some (Iface.release_attach_of_ne hbridge l)
    · -- A bridge of that name on another host is another bridge.
      exact drop_edit (hne fun h => hhost h.1) (fun h => absurd h hhost) fun _ => rfl
  | forwardingAllow b => rw [left_self rfl]; rfl
  | linkctl c e state => exact act_act_linkctl hd rfl (fun _ _ => rfl) rfl
  | linkctlWhenReady c e => rw [left_self rfl]; rfl
  | _ => cases hd

/-- What is left when an interface is detached. -/
theorem act_linkNoMaster {i : String} (hd : makes d.2 = true) :
    act (host, .linkNoMaster i) (act d n) =
      after (act (host, .linkNoMaster i) n) (left (host, .linkNoMaster i) d).toList := by
  obtain ⟨hostD, cmd⟩ := d
  have hdetach (l : Iface) (hl : l.detach = l) (o : Option Iface) :
      (some (o.getD l)).map Iface.detach = some ((o.map Iface.detach).getD l) := by
    cases o with
    | none => exact congrArg some hl
    | some l => rfl
  cases cmd with
  | bridgeAdd b =>
    rw [left_self rfl]
    exact edit_comm (hdetach _ rfl)
  | vxlanCreate e remote id =>
    rw [left_self rfl]
    exact edit_comm (hdetach _ rfl)
  | linkUp e =>
    rw [left_self rfl]
    exact edit_comm fun o => by cases o <;> rfl
  | linkNoMaster e =>
    rw [left_self rfl]
    exact edit_comm fun o => by cases o <;> rfl
  | linkMaster e b =>
    rw [left, leftOf]
    dsimp only
    split_ifs with hhost hname
    · subst hhost hname
      exact edit_over fun o => by cases o <;> rfl
    · exact edit_comm_of_ne fun h => hname (Prod.mk.inj h).2
    · exact edit_comm_of_ne fun h => hhost (Prod.mk.inj h).1
  | forwardingAllow b => rw [left_self rfl]; rfl
  | linkctl c e state => exact act_act_linkctl hd rfl (fun _ _ => rfl) rfl
  | linkctlWhenReady c e => rw [left_self rfl]; rfl
  | _ => cases hd

/-- What is left when a forwarding rule is removed. -/
theorem act_forwardingRemove {b : String} (hd : makes d.2 = true) :
    act (host, .forwardingRemove b) (act d n) =
      after (act (host, .forwardingRemove b) n) (left (host, .forwardingRemove b) d).toList := by
  obtain ⟨hostD, cmd⟩ := d
  cases cmd with
  | forwardingAllow b' =>
    rw [left, leftOf]
    dsimp only
    have herase (h : ¬(hostD = host ∧ b' = b)) :
        act (host, .forwardingRemove b) (act (hostD, .forwardingAllow b') n) =
          act (hostD, .forwardingAllow b') (act (host, .forwardingRemove b) n) :=
      Net.ext' rfl (Finset.erase_insert_of_ne fun heq => h (Prod.mk.inj heq)) rfl rfl
    split_ifs with hhost hname
    · subst hhost hname
      exact Net.ext' rfl (Finset.erase_insert_eq_erase _ _) rfl rfl
    · exact herase fun h => hname h.2
    · exact herase fun h => hhost h.1
  | linkctl c e state => exact act_act_linkctl hd rfl (fun _ _ => rfl) rfl
  | bridgeAdd _ | vxlanCreate _ _ _ | linkUp _ | linkMaster _ _ | linkNoMaster _
  | linkctlWhenReady _ _ =>
    rw [left_self rfl]
    rfl
  | _ => cases hd

/-- What is left when a carrier is lowered. -/
theorem act_linkctl {c i state : String} (hu : undoes (.linkctl c i state) = true)
    (hd : makes d.2 = true) :
    act (host, .linkctl c i state) (act d n) =
      after (act (host, .linkctl c i state) n) (left (host, .linkctl c i state) d).toList := by
  obtain ⟨hostD, cmd⟩ := d
  rw [act_linkctl_down hu, act_linkctl_down hu]
  cases cmd with
  | linkctl c' i' state' =>
    have hup : ∀ m, act (hostD, .linkctl c' i' state') m = _ := act_linkctl_up hd
    rw [left, leftOf, hup]
    dsimp only
    have herase (h : ¬(hostD = host ∧ c' = c ∧ i' = i)) :
        (insert (hostD, c', i') n.carriers).erase (host, c, i) =
          insert (hostD, c', i') (n.carriers.erase (host, c, i)) := by
      refine Finset.erase_insert_of_ne ?_
      rintro ⟨⟩
      exact h ⟨rfl, rfl, rfl⟩
    split_ifs with hhost hname
    · obtain ⟨rfl, rfl⟩ := hname
      subst hhost
      exact Net.ext' rfl rfl (Finset.erase_insert_eq_erase _ _) rfl
    · refine Eq.trans ?_ (hup { n with carriers := n.carriers.erase (host, c, i) }).symm
      exact Net.ext' rfl rfl (herase fun h => hname h.2) rfl
    · refine Eq.trans ?_ (hup { n with carriers := n.carriers.erase (host, c, i) }).symm
      exact Net.ext' rfl rfl (herase fun h => hhost h.1) rfl
  | bridgeAdd _ | vxlanCreate _ _ _ | linkUp _ | linkMaster _ _ | linkNoMaster _
  | forwardingAllow _ | linkctlWhenReady _ _ =>
    rw [left_self rfl]
    rfl
  | _ => cases hd

/-- What a deed leaves that undoes another one. -/
theorem leaves (hu : undoes u.2 = true) :
    Compensation.Leaves act (fun d => makes d.2 = true) left u where
  act_act {d} hd n := by
    obtain ⟨host, cmd⟩ := u
    cases cmd with
    | linkDelete i => exact act_linkDelete hd
    | linkNoMaster i => exact act_linkNoMaster hd
    | forwardingRemove b => exact act_forwardingRemove hd
    | linkctl c i state => exact act_linkctl hu hd
    | _ => cases hu
  ok_left {d d'} hd h := by
    obtain rfl | ⟨e, b, -, -, rfl⟩ := left_cases h
    · exact hd
    · rfl

/-! ## Undoing commands -/

theorem act_comm (hu : undoes u.2 = true) (hv : undoes v.2 = true) (n : Net) :
    act u (act v n) = act v (act u n) := by
  obtain ⟨hostU, cmdU⟩ := u
  obtain ⟨hostV, cmdV⟩ := v
  -- Deleting and detaching interfaces.
  have hdetach (p q : OnHost) (m : Net) :
      (m.edit q (Option.map Iface.detach)).drop p = (m.drop p).edit q (Option.map Iface.detach) := by
    by_cases hpq : p = q
    · subst hpq
      exact drop_edit_self.trans (edit_drop_self rfl).symm
    · exact drop_edit_same hpq (release_map Iface.release_detach)
  -- Rules and carriers are apart from interfaces, and from one another.
  cases cmdU with
  | linkDelete i =>
    cases cmdV with
    | linkDelete j => exact drop_comm
    | linkNoMaster j => exact hdetach _ _ _
    | forwardingRemove b => rfl
    | linkctl c j state =>
      rw [act_linkctl_down hv, act_linkctl_down hv]
      rfl
    | _ => cases hv
  | linkNoMaster i =>
    cases cmdV with
    | linkDelete j => exact (hdetach _ _ _).symm
    | linkNoMaster j => exact edit_comm fun _ => rfl
    | forwardingRemove b => rfl
    | linkctl c j state =>
      rw [act_linkctl_down hv, act_linkctl_down hv]
      rfl
    | _ => cases hv
  | forwardingRemove b =>
    cases cmdV with
    | linkDelete j => rfl
    | linkNoMaster j => rfl
    | forwardingRemove b => exact Net.ext' rfl Finset.erase_right_comm rfl rfl
    | linkctl c j state =>
      rw [act_linkctl_down hv, act_linkctl_down hv]
      rfl
    | _ => cases hv
  | linkctl c i state =>
    rw [act_linkctl_down hu, act_linkctl_down hu]
    cases cmdV with
    | linkDelete j => rfl
    | linkNoMaster j => rfl
    | forwardingRemove b => rfl
    | linkctl c j state =>
      rw [act_linkctl_down hv, act_linkctl_down hv]
      exact Net.ext' rfl rfl Finset.erase_right_comm rfl
    | _ => cases hv
  | _ => cases hu

theorem act_idem (hu : undoes u.2 = true) (n : Net) : act u (act u n) = act u n := by
  obtain ⟨host, cmd⟩ := u
  cases cmd with
  | linkDelete i => exact drop_drop
  | linkNoMaster i => exact edit_over fun o => by cases o <;> rfl
  | forwardingRemove b => exact Net.ext' rfl (Finset.erase_idem) rfl rfl
  | linkctl c i state =>
    rw [act_linkctl_down hu, act_linkctl_down hu]
    exact Net.ext' rfl rfl (Finset.erase_idem) rfl
  | _ => cases hu

theorem settling {undo : List Deed} (h : ∀ u ∈ undo, undoes u.2 = true) :
    Compensation.Settling act undo where
  comm u hu v hv := act_comm (h u hu) (h v hv)
  idem u hu := act_idem (h u hu)

/-! ## Making commands -/

/-- More is on the hosts, and interfaces are attached to `t` that were not. -/
structure Grown (t : Option String) (n m : Net) : Prop where
  links : ∀ p l, n.links p = some l → ∃ l', m.links p = some l' ∧ (l.up = true → l'.up = true) ∧
    (l'.master = l.master ∨ l'.master = t)
  forwarding : n.forwarding ⊆ m.forwarding
  carriers : n.carriers ⊆ m.carriers
  waiting : n.waiting ⊆ m.waiting

theorem Grown.antisymm {t : Option String} {m : Net} (h : Grown t n m) (h' : Grown t m n) : n = m := by
  refine Net.ext' (funext fun p => ?_) (h.forwarding.antisymm h'.forwarding)
    (h.carriers.antisymm h'.carriers) (h.waiting.antisymm h'.waiting)
  rcases hn : n.links p with _ | ⟨master, up⟩
  · rcases hm : m.links p with _ | l
    · rfl
    · obtain ⟨l', hl', -⟩ := h'.links p l hm
      rw [hn] at hl'
      cases hl'
  · obtain ⟨⟨master', up'⟩, hm, hup, hmaster⟩ := h.links p _ hn
    obtain ⟨l, hl, hup', hmaster'⟩ := h'.links p _ hm
    obtain rfl := Option.some.inj (hn.symm.trans hl)
    rw [hm, Option.some.injEq, Iface.mk.injEq]
    dsimp only at hup hup' hmaster hmaster'
    refine ⟨?_, Bool.eq_iff_iff.2 ⟨hup, hup'⟩⟩
    rcases hmaster with heq | heq
    · exact heq.symm
    · exact hmaster'.elim id fun heq' => heq'.trans heq.symm

instance (t : Option String) : IsPartialOrder Net (Grown t) where
  refl n := ⟨fun _ l hl => ⟨l, hl, id, .inl rfl⟩, subset_rfl, subset_rfl, subset_rfl⟩
  trans n m k h h' := by
    refine ⟨fun p l hl => ?_, h.forwarding.trans h'.forwarding, h.carriers.trans h'.carriers,
      h.waiting.trans h'.waiting⟩
    obtain ⟨l', hl', hup, hmaster⟩ := h.links p l hl
    obtain ⟨l'', hl'', hup', hmaster'⟩ := h'.links p l' hl'
    refine ⟨l'', hl'', hup' ∘ hup, ?_⟩
    rcases hmaster' with heq | heq
    · rw [heq]
      exact hmaster
    · exact .inr heq
  antisymm _ _ := Grown.antisymm

/-- A command attaches interfaces to nothing but `t`. -/
def Toward (t : Option String) : Cmd → Prop
  | .linkMaster _ b => t = some b
  | .linkNoMaster _ => t = none
  | cmd => makes cmd = true

theorem grown_edit {t : Option String} {p : OnHost} {f : Option Iface → Option Iface}
    (hf : ∀ l, ∃ l', f (some l) = some l' ∧ (l.up = true → l'.up = true) ∧
      (l'.master = l.master ∨ l'.master = t)) : Grown t n (n.edit p f) where
  links q l hl := by
    dsimp only [edit]
    split
    · rw [hl]
      exact hf l
    · exact ⟨l, hl, id, .inl rfl⟩
  forwarding := subset_rfl
  carriers := subset_rfl
  waiting := subset_rfl

theorem grown_add {t : Option String} {p : OnHost} (l : Iface) : Grown t n (n.add p l) := by
  rw [add]
  exact grown_edit fun l => ⟨l, rfl, id, .inl rfl⟩

theorem grown_act {t : Option String} (h : Toward t d.2) (n : Net) : Grown t n (act d n) := by
  obtain ⟨host, cmd⟩ := d
  have hrefl : Grown t n n := refl_of (Grown t) n
  cases cmd with
  | bridgeAdd b => exact grown_add _
  | vxlanCreate e remote id => exact grown_add _
  | linkUp e => exact grown_edit fun l => ⟨l.setUp, rfl, fun _ => rfl, .inl rfl⟩
  | linkMaster e b => exact grown_edit fun l => ⟨l.attach b, rfl, id, .inr (Eq.symm h)⟩
  | linkNoMaster e => exact grown_edit fun l => ⟨l.detach, rfl, id, .inr (Eq.symm h)⟩
  | forwardingAllow b => exact { hrefl with forwarding := Finset.subset_insert _ _ }
  | linkctl c i state =>
    rw [act_linkctl_up h]
    exact { hrefl with carriers := Finset.subset_insert _ _ }
  | linkctlWhenReady c i => exact { hrefl with waiting := Finset.subset_insert _ _ }
  | _ => cases h

/-- A deed that attaches interfaces to nothing but the bridge `b` of a host, and detaches none. -/
def OneBridge (host b : String) (d : Deed) : Prop :=
  Toward (some b) d.2 ∧ ∀ e b', d.2 = .linkMaster e b' → d.1 = host

theorem OneBridge.of_left {b : String} {d' : Deed} (h : OneBridge host b d)
    (hu : u ≠ (host, .linkDelete b)) (hleft : left u d = some d') : OneBridge host b d' := by
  obtain rfl | ⟨e, b', hd, rfl, -⟩ := left_cases hleft
  · exact h
  · have hhost := h.2 e b' hd
    have htoward := h.1
    rw [hd] at htoward
    obtain rfl := Option.some.inj htoward
    exact absurd (by rw [hhost]) hu

theorem toward_of_left {d' : Deed} (h : Toward none d.2) (hleft : left u d = some d') :
    Toward none d'.2 := by
  obtain rfl | ⟨e, b', -, -, rfl⟩ := left_cases hleft
  · exact h
  · rfl

/-- When the bridge is deleted, no interface is attached to it any more. -/
theorem OneBridge.toward_left {b : String} {d' : Deed} (h : OneBridge host b d)
    (hleft : left (host, .linkDelete b) d = some d') : Toward none d'.2 := by
  obtain ⟨hostD, cmd⟩ := d
  obtain rfl | ⟨e, b', -, -, rfl⟩ := left_cases hleft
  · obtain ⟨htoward, hhost⟩ := h
    cases cmd with
    | linkMaster e b' =>
      obtain rfl := Option.some.inj htoward
      obtain rfl := hhost e b rfl
      -- It is the bridge that is deleted, or what is left is another command.
      rw [left, leftOf, if_pos rfl] at hleft
      dsimp only at hleft
      rw [if_pos rfl] at hleft
      split_ifs at hleft
      · cases hleft
      · cases hleft
    | linkNoMaster e => rfl
    | _ => exact htoward
  · rfl

/-- What is left of deeds that attach interfaces to one bridge only. -/
theorem toward_leftover {b : String} {undo done : List Deed}
    (h : (∀ d ∈ done, OneBridge host b d) ∨ ∀ d ∈ done, Toward none d.2) :
    ∃ t, ∀ d ∈ Compensation.leftover left undo done, Toward t d.2 := by
  induction undo generalizing done with
  | nil => exact h.elim (fun h => ⟨some b, fun d hd => (h d hd).1⟩) fun h => ⟨none, h⟩
  | cons u undo ih =>
    refine @ih (done.filterMap (left u)) ?_
    rcases h with h | h
    · -- Deleting the bridge turns every attachment into a detachment.
      by_cases hu : u = (host, .linkDelete b)
      · right
        subst hu
        intro d' hd'
        obtain ⟨d, hd, hleft⟩ := List.mem_filterMap.1 hd'
        exact (h d hd).toward_left hleft
      · left
        intro d' hd'
        obtain ⟨d, hd, hleft⟩ := List.mem_filterMap.1 hd'
        exact (h d hd).of_left hu hleft
    · right
      intro d' hd'
      obtain ⟨d, hd, hleft⟩ := List.mem_filterMap.1 hd'
      exact toward_of_left (h d hd) hleft

/-- Deeds and what takes them back leave a network as it was, just when it is one in which what takes
    them back, and all that this leaves, would change nothing. -/
theorem undone_iff {b : String} {undo done : List Deed} (hundo : ∀ u ∈ undo, undoes u.2 = true)
    (hdone : ∀ d ∈ done, makes d.2 = true ∧ OneBridge host b d) :
    (n.after done).after undo = n ↔ (∀ u ∈ undo, n.Idle u) ∧
      ∀ d ∈ Compensation.leftover left undo done, n.Idle d := by
  obtain ⟨t, ht⟩ : ∃ t, ∀ d ∈ Compensation.leftover left undo done, Toward t d.2 :=
    toward_leftover (.inl fun d hd => (hdone d hd).2)
  exact Compensation.undone_iff (r := Grown t) (fun u hu => leaves (hundo u hu))
    (fun d hd => (hdone d hd).1) (settling hundo) fun d hd => grown_act (ht d hd)

end Net

end Left

end Dnlab.RuntimeLinks
