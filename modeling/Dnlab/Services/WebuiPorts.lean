import Dnlab.Lib.Pool
import Dnlab.Models.Topology
import Dnlab.Services.Remote

/-!
# Host-side ports of web interfaces

`services/webui_ports.py`: the ports that containers publish on the master, as
`docker ps` prints them, and the allocation of one port of a range that none of
them has.
-/

namespace Dnlab

namespace WebuiPorts

/-- `WebUIPortAllocationError`. -/
def allocationError (message : String) : Err := ⟨.other, message⟩

/-- `int(s)` of a text that is all digits. -/
def digitsValue (l : List Char) : ℕ := l.foldl (fun n c => 10 * n + Text.decimalValue c) 0

/-- `parse_port_range(spec)`: the two ends of `<low>-<high>`, inclusive. -/
def parsePortRange (spec : String) : Except Err (ℕ × ℕ) :=
  match spec.toList.splitOn '-' with
  | [l, h] =>
    if l = [] ∨ h = [] ∨ !(l ++ h).all Text.isDecimal then .error malformed
    else
      let low := digitsValue l
      let high := digitsValue h
      if 1 ≤ low ∧ low ≤ high ∧ high ≤ 65535 then .ok (low, high)
      else .error (allocationError ("webui port range " ++ Text.repr spec ++
        " invalid (require 1 <= low <= high <= 65535)"))
  | _ => .error malformed
where
  malformed := allocationError
    ("webui port range must be '<low>-<high>', got " ++ Text.repr spec)

/-- `s.split("->", 1)[0]`, if the arrow is in the text. -/
def beforeArrow : List Char → Option (List Char)
  | [] => none
  | '-' :: '>' :: _ => some []
  | c :: l => (beforeArrow l).map (c :: ·)

/-- `s.rpartition(":")`, if there is a colon: what is before and after the last one. -/
def atLastColon (l : List Char) : Option (List Char × List Char) :=
  match l.reverse.dropWhile (· ≠ ':') with
  | [] => none
  | _ :: address => some (address.reverse, (l.reverse.takeWhile (· ≠ ':')).reverse)

/-- The host-side port of one mapping `<host-ip>:<host-port>-><cont-port>/<proto>`, if it is
    published where `bind_ip` listens. -/
def mappedPort (bindIp : String) (chunk : String) : Option ℕ := do
  let lhs ← beforeArrow (Text.stripSpaces chunk).toList
  let (address, port) ← atLastColon lhs
  let ip := String.ofList address
  if ip = bindIp ∨ ip = "0.0.0.0" ∨ bindIp = "0.0.0.0" then
    (← Text.toInt? (.ofList port)).toNat?
  else none

/-- The ends of lines for `str.splitlines`. -/
def isLineEnd (c : Char) : Bool :=
  [0x0a, 0x0b, 0x0c, 0x0d, 0x1c, 0x1d, 0x1e, 0x85, 0x2028, 0x2029].contains c.toNat

/-- The ports of one line: those after the name of the container and a tab. -/
def linePorts (bindIp : String) (line : List Char) : List ℕ :=
  match line.dropWhile (· ≠ '\t') with
  | [] => []
  | _ :: ports =>
    (Text.split ',' (Text.stripSpaces (.ofList ports))).filterMap (mappedPort bindIp)

/-- `_ports_in_use_for_webui(client, bind_ip)`, from the answer to `docker ps`. -/
def portsInUse (bindIp : String) (r : Reply) : List ℕ :=
  if r.rc ≠ 0 ∨ r.out = "" then []
  else (r.out.toList.splitOnP isLineEnd).flatMap (linePorts bindIp)

/-- `allocate_webui_port(client, bind_ip, port_range, used_extra=…, preferred=…)`, where `B` answers
    for the master. -/
def allocateWebuiPort {ρ : Type} (B : Backend ρ) (cfg : WebUIPortsCfg) (usedExtra : List ℕ)
    (preferred : Option ℕ) (env : ρ) : Except Err ℕ × ρ :=
  match parsePortRange cfg.portRange with
  | .error e => (.error e, env)
  | .ok (low, high) =>
    let (answer, env) := B.exec "master" .publishedPorts env
    (do
      let r ← answer
      let used := portsInUse cfg.bindIp r ++ usedExtra
      match Pool.take low high used preferred with
      | some port => .ok port
      | none => .error (allocationError ("WebUI port range " ++ cfg.portRange ++ " on " ++
        cfg.bindIp ++ " exhausted (" ++ toString used.dedup.length ++
        " in use). Widen the range in hosts.yml or destroy some labs to free ports.")), env)

example : portsInUse "127.0.0.1" ⟨0, "clab-a-r1\t127.0.0.1:8443->443/tcp, :::80->80/tcp\nclab-b", ""⟩ =
    [8443] := by decide

/-- A port that was allocated was taken from the range, past those that `docker ps` shows. -/
theorem take_of_allocateWebuiPort {ρ : Type} {B : Backend ρ} {cfg : WebUIPortsCfg} {r : Reply}
    (hB : ∀ env, (B.exec "master" .publishedPorts env).1 = .ok r) {low high : ℕ}
    (hrange : parsePortRange cfg.portRange = .ok (low, high)) {usedExtra : List ℕ}
    {preferred : Option ℕ} {env : ρ} {port : ℕ}
    (h : (allocateWebuiPort B cfg usedExtra preferred env).1 = .ok port) :
    Pool.take low high (portsInUse cfg.bindIp r ++ usedExtra) preferred = some port := by
  simp only [allocateWebuiPort, hrange, hB env] at h
  change (match Pool.take low high (portsInUse cfg.bindIp r ++ usedExtra) preferred with
    | some port => Except.ok port
    | none => .error _) = _ at h
  split at h
  · cases h
    assumption
  · cases h

end WebuiPorts

end Dnlab
