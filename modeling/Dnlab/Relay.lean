import Dnlab.Services.RuntimeRelay

/-!
# The relay

The relay of a lab on a host, after `runtime-relay/relay.py`: which requests it
answers. A request says what is wanted, the key, and the container; whoever has
the key gets at the containers that the environment lists or that look like one
of the lab's.
-/

namespace Dnlab.Relay

/-- What the relay reads of its environment when it starts. -/
structure Config where
  apiKey : String
  allowed : List String
  allowedPrefix : String
  deriving DecidableEq

def Config.ofEnvironment (env : RuntimeRelay.Environment) : Config where
  apiKey := env.apiKey
  allowed := (Text.words env.allowedContainers).filter (· ≠ "")
  allowedPrefix := env.allowedPrefix

/-- `compare_digest(a, b)`, which only compares ASCII texts. -/
def compareDigest (a b : String) : Except String Bool :=
  if (a.toList ++ b.toList).all (·.toNat < 128) then .ok (a = b)
  else .error "comparing strings with non-ASCII characters is not supported"

variable (config : Config)

/-- `_matches_lab_container(container)`. -/
def matchesLabContainer (container : String) : Bool :=
  if config.allowedPrefix = "" ∨ Text.startsWith container config.allowedPrefix = false then false
  else
    let suffix := container.toList.drop config.allowedPrefix.toList.length
    suffix.zipIdx.any fun (char, index) =>
      char = '-' && 0 < index && index + 1 < suffix.length &&
        suffix.take index = suffix.drop (index + 1)

/-- `_authorized(key, container)`. -/
def authorized (key container : String) : Except String Bool :=
  let allowed := config.allowed.contains container || matchesLabContainer config container
  if config.apiKey = "" then .ok false
  else (compareDigest key config.apiKey).map (· && allowed)

/-- What becomes of a request. -/
inductive Response
  | err (text : String)
  | console (container : String)
  | logs (container tail follow : String)
  deriving DecidableEq

/-- The container that a response is about. -/
def Response.container? : Response → Option String
  | err _ => none
  | console container => some container
  | logs container _ _ => some container

/-- `_handle`, of the words of a request. -/
def handle (running : String → Bool) : (parts : List String) → Response
  | action :: key :: container :: args =>
    match authorized config key container with
    | .error text => .err ("ERR " ++ text)
    | .ok false => .err "ERR unauthorized"
    | .ok true =>
      if running container = false then .err "ERR container not running"
      else if action = "CONNECT" then .console container
      else if action = "LOG" then .logs container (args.getD 0 "200") (args.getD 1 "0")
      else .err "ERR unknown action"
  | _ => .err "ERR bad request"

/-- Some request gets at the container, if it runs. -/
def Admits (container : String) : Prop :=
  ∃ running parts, (handle config running parts).container? = some container

end Dnlab.Relay
