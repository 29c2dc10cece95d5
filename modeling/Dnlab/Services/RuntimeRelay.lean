import Dnlab.Models.Schedule
import Dnlab.Utils.Naming

/-!
# Relays on the hosts

The part of `services/runtime_relay.py` that says what the relay of a lab on a
host is started with. The relay itself is in `Dnlab.Relay`.
-/

namespace Dnlab.RuntimeRelay

/-- What a relay finds in its environment: `RELAY_API_KEY`, `RELAY_ALLOWED_CONTAINERS` and
    `RELAY_ALLOWED_PREFIX`. -/
structure Environment where
  apiKey : String
  allowedContainers : String
  allowedPrefix : String
  deriving DecidableEq

/-- `_containers_for_host(lab_name, plan, host_name)`. -/
def containersForHost (labName : String) (plan : SchedulePlan) (hostName : String) : List String :=
  match plan.assignments.get? hostName with
  | none => []
  | some assignment => assignment.vdNames.map (Naming.microVdContainerName labName)

/-- `_allowed_prefix(lab_name)`. -/
def allowedPrefix (labName : String) : String := "clab-dnlab-" ++ labName ++ "-"

/-- `_deploy_one`: the relay of a lab on a host, if the host has devices of the lab. -/
def deployOne (labName : String) (plan : SchedulePlan) (apiKey hostName : String) :
    Option Environment :=
  let containers := containersForHost labName plan hostName
  if containers = [] then none
  else some
    { apiKey, allowedContainers := Text.join " " containers, allowedPrefix := allowedPrefix labName }

end Dnlab.RuntimeRelay
