import Dnlab.Lib.Prog
import Dnlab.Lib.Text
import Dnlab.Models.Clab
import Dnlab.Models.State

/-!
# Remote hosts

The commands that the program runs on its hosts, after `services/ssh.py`. What
a host does is not modelled: a `Backend` answers every command with any reply,
or breaks off, and moves to any state. What the program makes of an answer is:
a command that is checked raises an exception when its exit code is not zero.

A run keeps a `log` of the commands and of what the program meant by them,
which no command reads.
-/

namespace Dnlab

/-- The exceptions that the program tells apart. -/
inductive ErrKind
  | ssh
  | value
  | key
  | runtime
  | schedule
  | lifecycle
  | cancelled
  | deploy
  | config
  | address
  | other
  deriving DecidableEq

/-- An exception and its text. -/
structure Err where
  kind : ErrKind
  message : String
  deriving DecidableEq

/-- How a path or a name is put into a command. -/
inductive Quoting
  | bare
  | single
  | shell
  deriving DecidableEq

/-- The word in the command. -/
def Quoting.apply : Quoting → String → String
  | bare, s => s
  | single, s => "'" ++ s ++ "'"
  | shell, s => Text.quote s

/-- The commands, one constructor for each command line of the program. -/
inductive Cmd
  | connect
  | upload (path : String) (content : Content)
  | bridgeAdd (bridge : String)
  | linkUp (iface : String)
  | linkMaster (iface bridge : String)
  | linkNoMaster (iface : String)
  | linkDelete (iface : String)
  | linkShow (iface : String)
  | vxlanCreate (iface remote : String) (id : ℕ)
  | linkctl (container iface state : String)
  | linkctlWhenReady (container iface : String)
  | forwardingAllow (bridge : String)
  | forwardingRemove (bridge : String)
  | clabDeploy (path : String) (reconfigure : Bool)
  | clabDestroy (path : String) (quoting : Quoting)
  | containerStatus (container : String)
  | containerStatuses (containers : List String)
  | containerLogs (container : String) (lines : ℕ)
  | networkRemove (network : String)
  | imageId (image : String)
  | imageLabels (image : String)
  | defaultRoute (container gateway : String)
  | underlayAddr (iface : String) (quoting : Quoting)
  | mkdir (path : String)
  | nproc
  | freeRam
  | publishedPorts

namespace Cmd

/-- The four rules of a bridge with `verb`, each tried after `-C` finds none. -/
def forwardRule (verb dir bridge : String) : String :=
  verb ++ " " ++ dir ++ " " ++ bridge ++ " -m comment --comment 'dnlab runtime " ++ bridge ++
    "' -j ACCEPT"

/-- The command line. -/
def text : Cmd → String
  | connect => ""
  | upload path _ => path
  | bridgeAdd b =>
    "ip link show " ++ b ++ " >/dev/null 2>&1 || ip link add " ++ b ++ " type bridge"
  | linkUp i => "ip link set " ++ i ++ " up"
  | linkMaster i b => "ip link set " ++ i ++ " master " ++ b
  | linkNoMaster i => "ip link set " ++ i ++ " nomaster 2>/dev/null"
  | linkDelete i => "ip link delete " ++ i ++ " 2>/dev/null"
  | linkShow i => "ip link show " ++ Text.quote i
  | vxlanCreate i remote id =>
    "ip link show vx-" ++ i ++ " >/dev/null 2>&1 || containerlab tools vxlan create --remote " ++
      remote ++ " --id " ++ toString id ++ " --link " ++ i
  | linkctl c i s => "docker exec " ++ c ++ " dnlab-linkctl " ++ i ++ " " ++ s
  | linkctlWhenReady c i =>
    "docker exec -d " ++ c ++ " sh -c " ++ Text.quote
      ("while [ ! -S /run/dnlab-link-control.sock ]; do sleep 0.25; done; exec dnlab-linkctl " ++
        i ++ " up")
  | forwardingAllow b =>
    Text.join "; " (["-i", "-o"].map fun d =>
      forwardRule "iptables -C FORWARD" d b ++ " 2>/dev/null || " ++
        forwardRule "iptables -I FORWARD 1" d b)
  | forwardingRemove b =>
    Text.join "; " (["-i", "-o"].map fun d =>
      "while " ++ forwardRule "iptables -C FORWARD" d b ++ " 2>/dev/null; do " ++
        forwardRule "iptables -D FORWARD" d b ++ "; done")
  | clabDeploy p r =>
    "containerlab deploy -t " ++ Text.quote p ++ if r then " --reconfigure" else ""
  | clabDestroy p q => "containerlab destroy -t " ++ q.apply p ++ " --cleanup"
  | containerStatus c => "docker inspect --format '\x7b\x7b.State.Status\x7d\x7d' " ++ c
  | containerStatuses cs =>
    "docker inspect --format '\x7b\x7b.State.Status\x7d\x7d' " ++ Text.join " " cs
  | containerLogs c n => "docker logs --tail " ++ toString n ++ " " ++ c ++ " 2>&1"
  | networkRemove n => "docker network rm " ++ n ++ " 2>/dev/null"
  | imageId i => "docker image inspect " ++ Text.quote i ++ " --format '\x7b\x7b.Id\x7d\x7d'"
  | imageLabels i =>
    "docker image inspect " ++ Text.quote i ++ " --format '\x7b\x7bjson .Config.Labels\x7d\x7d'"
  | defaultRoute c gw => "docker exec " ++ c ++ " sh -lc 'ip route replace default via " ++ gw ++ "'"
  | underlayAddr i q =>
    "ip -4 -o addr show dev " ++ q.apply i ++
      " | awk '\x7bprint $4\x7d' | cut -d/ -f1 | head -n1"
  | mkdir p => "mkdir -p '" ++ p ++ "'"
  | nproc => "nproc"
  | freeRam => "free -m | awk '/^Mem:/\x7bprint $7\x7d'"
  | publishedPorts =>
    "docker ps --filter 'name=clab-' --format '\x7b\x7b.Names\x7d\x7d\t\x7b\x7b.Ports\x7d\x7d'"

end Cmd

/-- The commands that put the topology of a device on its host, deploy it or destroy it. -/
def Cmd.isDeployment : Cmd → Bool
  | upload _ (.clab _) => true
  | clabDeploy _ reconfigure => !reconfigure
  | clabDestroy _ _ => true
  | _ => false

/-- The answer to a command. -/
structure Reply where
  rc : Int
  out : String
  err : String
  deriving DecidableEq

/-- What a run records. -/
inductive Event
  /-- A command was run on a host, and whether it succeeded. -/
  | ran (host : String) (cmd : Cmd) (ok : Bool)
  /-- The host interface of an endpoint was attached to a link. -/
  | attached (host iface : String) (endpoint : Endpoint) (warm : Bool)
  /-- A link was brought up. -/
  | created (link : RuntimeLinkState)
  /-- The deletion of a link was begun. -/
  | deleting (link : RuntimeLinkState)

/-- The hosts, with everything else outside the program: each command is answered or broken off,
    the clock runs, and a request to cancel may come at any time. -/
structure Backend (ρ : Type) where
  /-- The answer to a command on a host. -/
  exec : (host : String) → Cmd → ρ → Except Err Reply × ρ
  /-- Whether the operation has been cancelled. -/
  cancelled : ρ → Bool × ρ
  /-- How often a poll is repeated before its deadline. -/
  patience : ρ → ℕ
  /-- The time as text. -/
  now : ρ → String

/-- The hosts as a run of the program sees them. -/
structure Remote (ρ : Type) where
  env : ρ
  log : List Event := []

namespace Remote

variable {ρ : Type} (B : Backend ρ)

/-- Record an event. -/
def note (e : Event) : Prog (Remote ρ) Err Unit := .modify fun r => { r with log := e :: r.log }

/-- Whether an answer means that the command succeeded. -/
def succeeded : Except Err Reply → Bool
  | .ok r => r.rc == 0
  | .error _ => false

/-- `client.run_no_check(command)`. -/
def runNoCheck (host : String) (cmd : Cmd) : Prog (Remote ρ) Err Reply := fun r =>
  let (answer, env) := B.exec host cmd r.env
  (answer, { env := env, log := .ran host cmd (succeeded answer) :: r.log })

/-- The exception of a command that failed. -/
def sshError (address : String) (cmd : Cmd) (r : Reply) : Err where
  kind := .ssh
  message := "[" ++ address ++ "] Command failed (rc=" ++ toString r.rc ++ "): " ++ cmd.text ++
    "\n  stderr: " ++ r.err

/-- `client.run(command, check=check)`; `address` is the one the client connects to. -/
def run (host address : String) (cmd : Cmd) (check : Bool) : Prog (Remote ρ) Err String := do
  let r ← runNoCheck B host cmd
  if r.rc ≠ 0 ∧ check then .raise (sshError address cmd r) else pure r.out

/-- Ask whether the operation has been cancelled. -/
def pollCancelled : Prog (Remote ρ) Err Bool := fun r =>
  let (c, env) := B.cancelled r.env
  (.ok c, { r with env := env })

/-- How often a poll is repeated before its deadline. -/
def patience : Prog (Remote ρ) Err ℕ := fun r => (.ok (B.patience r.env), r)

/-- The time as text. -/
def now : Prog (Remote ρ) Err String := fun r => (.ok (B.now r.env), r)

end Remote

/-- The clients of a lab, one for each host of the inventory. -/
abbrev Clients := Dict String InfraHost

namespace Clients

variable {ρ : Type} (B : Backend ρ) (clients : Clients)

/-- `clients[host]` is missing. -/
def missing (host : String) : Err := ⟨.key, "'" ++ host ++ "'"⟩

/-- `clients[host].run(command, check=check)`. -/
def run (host : String) (cmd : Cmd) (check : Bool) : Prog (Remote ρ) Err String :=
  match clients.get? host with
  | some c => Remote.run B host c.host cmd check
  | none => .raise (missing host)

/-- `clients[host].run_no_check(command)`. -/
def runNoCheck (host : String) (cmd : Cmd) : Prog (Remote ρ) Err Reply :=
  match clients.get? host with
  | some _ => Remote.runNoCheck B host cmd
  | none => .raise (missing host)

/-- A command on a host that may have no client, not checked: `client = clients.get(host)`. -/
def runIfPresent (host : String) (cmd : Cmd) : Prog (Remote ρ) Err Unit :=
  match clients.get? host with
  | some c => do
    let _ ← Remote.run B host c.host cmd false
    pure ()
  | none => pure ()

end Clients

end Dnlab
