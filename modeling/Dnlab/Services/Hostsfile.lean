import Dnlab.Lib.Dict
import Dnlab.Lib.IpAny
import Dnlab.Lib.Lines
import Mathlib.Data.List.Sort
import Mathlib.Data.String.Basic

/-!
# The names of nodes

After `services/hostsfile.py`. On every host, containerlab writes the addresses of
a lab's nodes to `/etc/hosts`, in a block between two markers with the lab's name.
The blocks of all hosts are read and merged, the first entry of a name being kept.
-/

namespace Dnlab.Hostsfile

/-- `"A"` or `"AAAA"`. -/
inductive Family
  | a | aaaa
  deriving DecidableEq

/-- A name with an address. -/
structure HostEntry where
  name : String
  ip : String
  family : Family
  deriving DecidableEq

/-! ## Blocks -/

/-- The two ends of a block, `"START"` and `"END"`. -/
inductive Mark
  | start | finish
  deriving DecidableEq

def Mark.word : Mark → String
  | .start => "START"
  | .finish => "END"

/-- `^#+\s*`, before the rest of a line. -/
def afterHashes (line : List Char) : Option (List Char) :=
  if line.head? = some '#' then some ((line.dropWhile (· = '#')).dropWhile Text.isSpace) else none

/-- `\s*#+\s*$`. -/
def isRule (l : List Char) : Bool :=
  match afterHashes (l.dropWhile Text.isSpace) with
  | some rest => rest = []
  | none => false

/-- `CLAB-{lab_name}-START`, or `-END`. -/
def label (mark : Mark) (labName : String) : List Char :=
  "CLAB-".toList ++ labName.toList ++ '-' :: mark.word.toList

/-- `^#+\s*CLAB-{lab_name}-START\s*#+\s*$`, or with `END`. None of the three runs of characters can
    begin with what may come after it, so there is one way to match them. -/
def isMark (mark : Mark) (labName : String) (line : String) : Bool :=
  match afterHashes line.toList with
  | some rest =>
    (label mark labName).isPrefixOf rest && isRule (rest.drop (label mark labName).length)
  | none => false

/-- The entry of a line in a block. -/
def entryOf (line : String) : Option HostEntry :=
  let payload := Text.stripSpaces (.ofList (line.toList.takeWhile (· ≠ '#')))
  match Text.words payload with
  | ip :: name :: _ =>
    match Ip.AnyAddress.parse ip with
    | .ok addr => some ⟨name, ip, if addr.version = 6 then .aaaa else .a⟩
    | .error _ => none
  | _ => none

/-- The lines of a text, stripped. A text has some blank ones more than for `str.splitlines`, but
    these are left out. -/
def linesOf (text : String) : List String :=
  ((text.toList.splitOnP Text.isLineEnd).map fun raw => Text.stripSpaces (.ofList raw)).filter (· ≠ "")

/-- The loop of `parse_hosts_block`. -/
def parseLines (labName : String) : (inside : Bool) → (lines : List String) → List HostEntry
  | _, [] => []
  | inside, line :: lines =>
    if isMark .start labName line then parseLines labName true lines
    else if isMark .finish labName line then parseLines labName false lines
    else if inside then (entryOf line).toList ++ parseLines labName inside lines
    else parseLines labName inside lines

/-- `parse_hosts_block(text, lab_name)`. -/
def parseHostsBlock (text labName : String) : List HostEntry :=
  parseLines labName false (linesOf text)

/-! ## All hosts -/

/-- What there is in `/etc/hosts` of each host, if it can be read. -/
abbrev Clients := Dict String (Option String)

/-- `ordered_hosts`: the master first. -/
def orderedHosts (clients : Clients) : List String :=
  (if clients.contains "master" then ["master"] else []) ++
    (clients.keys.filter (· ≠ "master")).insertionSort fun a b => a.toList ≤ b.toList

/-- The body of the inner loop: `seen` with one entry more, unless it has the name. -/
def keepFirst (seen : Dict String HostEntry) (entry : HostEntry) : Dict String HostEntry :=
  if seen.contains entry.name then seen else seen.set entry.name entry

/-- The body of the outer loop. A host whose file cannot be read is passed over. -/
def collectHost (labName : String) (clients : Clients) (seen : Dict String HostEntry)
    (host : String) : Dict String HostEntry :=
  match (clients.get? host).join with
  | some text => (parseHostsBlock text labName).foldl keepFirst seen
  | none => seen

/-- `collect_hosts_entries(lab_name, clients)`. -/
def collectHostsEntries (labName : String) (clients : Clients) : List HostEntry :=
  ((orderedHosts clients).foldl (collectHost labName clients) ∅).values

example : parseHostsBlock
    "127.0.0.1 localhost\n###### CLAB-v6-START ######\n10.0.0.1 r1 ab # Kind: linux\n2001:db8::1 r1 ab\n###### CLAB-v6-END ######\n10.0.0.9 x"
    "v6" = [⟨"r1", "10.0.0.1", .a⟩, ⟨"r1", "2001:db8::1", .aaaa⟩] := by decide +kernel

end Dnlab.Hostsfile
