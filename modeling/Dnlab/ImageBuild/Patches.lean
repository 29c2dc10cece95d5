import Dnlab.Lib.Lines
import Dnlab.Lib.Occurrence

/-!
# Patches of launchers

After `image-build/patches/_common.py`: three transforms of the text of a launcher. Each
looks for statements that it knows, puts others in their place, and leaves a marker by
which it finds that it was there before. A transform returns the new text and whether it
was applied; the model also records the statements that it substituted (`made`).
-/

namespace Dnlab.ImageBuild

open Occurrence (firstIn replaceFirst)
open Text (lineStart lineRest linesKeep isSpace)

/-- A place in a text: what is before a statement and after it. -/
structure Spot where
  before : List Char
  after : List Char

/-- A statement that was substituted, in the old text and in the new one. -/
structure Substituted where
  old : Spot
  new : Spot

/-- A new text, whether the transform was applied, and the statements that it substituted. -/
structure Patched where
  text : List Char
  applied : Bool
  made : List Substituted

/-- `text.replace(anchor, replacement, 1)`, for a statement with what is before and after it. -/
structure Substitution where
  lead : List Char
  statement : List Char
  trail : List Char
  /-- What is before the new statement. -/
  inserted : List Char
  replacement : List Char

namespace Substitution

variable (σ : Substitution)

/-- The anchor, and what it is replaced by, without what comes after the statement. -/
def oldBlock : List Char := σ.lead ++ σ.statement

def newBlock : List Char := σ.inserted ++ σ.replacement

def anchor : List Char := σ.oldBlock ++ σ.trail

def apply (text : List Char) : List Char := replaceFirst σ.anchor (σ.newBlock ++ σ.trail) text

/-- What is substituted in a text. -/
def made (text : List Char) : List Substituted :=
  match firstIn σ.anchor text with
  | some (a, b) =>
    [⟨⟨a ++ σ.lead, σ.trail ++ b⟩, ⟨a ++ σ.inserted, σ.trail ++ b⟩⟩]
  | none => []

end Substitution

/-! ## The overlay of the disk -/

/-- `_OVERLAY_ANCHOR`. -/
def overlayAnchor : List Char :=
  "overlay_disk_image = re.sub(r\"(\\.[^.]+$)\", r\"-overlay\\1\", disk_image)".toList

/-- `_OVERLAY_REPLACEMENT`. -/
def overlayReplacement : List Char :=
  ("overlay_disk_image = (\"/persist/overlay.qcow2\" if os.path.isdir(\"/persist\") " ++
    "else re.sub(r\"(\\.[^.]+$)\", r\"-overlay\\1\", disk_image))").toList

/-- `_PROVENANCE_MARKER`. -/
def provenanceMarker : List Char := "# dnlab-patched: persist-overlay-v1".toList

/-- `stripped.startswith(_OVERLAY_ANCHOR)`. -/
def hasOverlayAnchor (line : List Char) : Bool := overlayAnchor.isPrefixOf (line.dropWhile isSpace)

/-- What `patch_persist_overlay` makes of the line with the anchor, between others. -/
def overlayAt (before line after : List Char) : Patched :=
  let indent := line.takeWhile isSpace
  let eol := if line.getLast? = some '\n' then ['\n'] else []
  let inserted := indent ++ provenanceMarker ++ eol ++ indent
  { text := before ++ (inserted ++ overlayReplacement ++ eol) ++ after
    applied := true
    made := [⟨⟨before ++ indent, (line.dropWhile isSpace).drop overlayAnchor.length ++ after⟩,
      ⟨before ++ inserted, eol ++ after⟩⟩] }

/-- The loop of `patch_persist_overlay`, after the lines before. -/
def overlayLines (text : List Char) : (before : List Char) → (lines : List (List Char)) → Patched
  | _, [] => ⟨text, false, []⟩
  | before, line :: lines =>
    if hasOverlayAnchor line then overlayAt before line lines.flatten
    else overlayLines text (before ++ line) lines

/-- `patch_persist_overlay(text)`. -/
def patchPersistOverlay (text : List Char) : Patched :=
  if provenanceMarker <:+: text then ⟨text, true, []⟩
  else overlayLines text [] (linesKeep text)

/-! ## Addresses of version 6 -/

/-- `_OPTIONAL_IPV6_MARKER`. -/
def optionalIpv6Marker : List Char := "# dnlab-patched: optional-mgmt-ipv6-v1".toList

/-- A line that fills in a placeholder, and what it becomes when there may be no value. -/
def optional (placeholder value : List Char) : Substitution where
  lead := []
  statement := "cfg = cfg.replace(\"".toList ++ placeholder ++ "\", ".toList ++ value ++ ")".toList
  trail := []
  inserted := []
  replacement :=
    "cfg = cfg.replace(\"".toList ++ placeholder ++ "\", ".toList ++ value ++ " or \"\")".toList

def optionalIp : Substitution :=
  optional "\x7bMGMT_IP_IPV6\x7d".toList "self.mgmt_address_ipv6".toList

def optionalGw : Substitution :=
  optional "\x7bMGMT_GW_IPV6\x7d".toList "self.mgmt_gw_ipv6".toList

/-- The marker, before `first_anchor`. -/
def markIpv6 : Substitution where
  lead := []
  statement := optionalIp.replacement
  trail := []
  inserted := optionalIpv6Marker ++ "\n        ".toList
  replacement := optionalIp.replacement

/-- `patch_optional_mgmt_ipv6(text)`. -/
def patchOptionalMgmtIpv6 (text : List Char) : Patched :=
  if optionalIpv6Marker <:+: text then ⟨text, true, []⟩
  else
    let withIp := optionalIp.apply text
    let withBoth := optionalGw.apply withIp
    let made := optionalIp.made text ++ optionalGw.made withIp
    if withBoth = text then ⟨withBoth, false, made⟩
    else ⟨markIpv6.apply withBoth, true, made ++ markIpv6.made withBoth⟩

/-! ## Warm links -/

/-- Lines, with their ends. -/
def unlines (lines : List String) : List Char := lines.flatMap fun line => line.toList ++ ['\n']

/-- `_WARM_LINK_MARKER`. -/
def warmLinkMarker : List Char := "# dnlab-patched: warm-links-v1".toList

/-- `delay_anchor`, and `delay_replacement`. -/
def delay : Substitution where
  lead := "            ".toList
  statement := "time.sleep(5)".toList
  trail := "\n\n        # check if we need to provision".toList
  inserted := unlines [
    "            try:",
    "                poll_interval = float(os.environ.get(\"DNLAB_NIC_POLL_INTERVAL\", \"5\"))",
    "            except (TypeError, ValueError):",
    "                poll_interval = 5.0"] ++ "            ".toList
  replacement := "time.sleep(max(0.02, min(poll_interval, 5.0)))".toList

/-- `qemu_anchor`, and `qemu_replacement`. -/
def qemu : Substitution where
  lead := "        ".toList
  statement := "self.logger.debug(\"qemu cmd: \x7b\x7d\".format(\" \".join(cmd)))".toList
  trail := ['\n']
  inserted := unlines [
    "        # DNLAB warm ports: pause before the guest executes so the",
    "        # controller can force carrier down through the monitor.",
    "        if int(os.environ.get(\"DNLAB_WARM_PORTS\", \"0\") or 0) > 0:",
    "            cmd.append(\"-S\")",
    ""] ++ "        ".toList
  replacement := "self.logger.debug(\"qemu cmd: \x7b\x7d\".format(\" \".join(cmd)))".toList

/-- The lines of `controller` after the marker. -/
def controllerLines : List String := [
    "def _dnlab_warm_link_controller(vr):",
    "    import re as _re",
    "    import socket as _socket",
    "    import threading as _threading",
    "    import time as _time",
    "",
    "    try:",
    "        warm_ports = int(os.environ.get(\"DNLAB_WARM_PORTS\", \"0\"))",
    "        vm_index = int(os.environ.get(\"DNLAB_WARM_VM_INDEX\", \"0\"))",
    "    except (TypeError, ValueError):",
    "        vr.logger.error(\"invalid DNLAB warm-link configuration\")",
    "        return",
    "    if warm_ports <= 0:",
    "        return",
    "    if vm_index < 0 or vm_index >= len(vr.vms):",
    "        vr.logger.error(\"DNLAB_WARM_VM_INDEX %s is outside vr.vms\", vm_index)",
    "        return",
    "",
    "    vm = vr.vms[vm_index]",
    "    lock = _threading.Lock()",
    "",
    "    # Publish the control socket before waiting for QEMU.  A client may queue",
    "    # its request in the listen backlog while initial carrier state is being",
    "    # applied; this closes the container-running/socket-ready race.",
    "    path = \"/run/dnlab-link-control.sock\"",
    "    try:",
    "        os.unlink(path)",
    "    except FileNotFoundError:",
    "        pass",
    "    server = _socket.socket(_socket.AF_UNIX, _socket.SOCK_STREAM)",
    "    server.bind(path)",
    "    os.chmod(path, 0o660)",
    "    server.listen(8)",
    "",
    "    def monitor_ready():",
    "        if getattr(vm, \"use_scrapli\", False):",
    "            return vm.scrapli_qm.isalive()",
    "        return getattr(vm, \"qm\", None) is not None",
    "",
    "    # QEMU was launched with -S.  Initialise carrier before allowing the",
    "    # guest to execute, which avoids both model-specific NIC properties and",
    "    # a transient carrier-up window.",
    "    while not monitor_ready():",
    "        _time.sleep(0.05)",
    "    try:",
    "        with lock:",
    "            for index in range(1, warm_ports + 1):",
    "                vm._qemu_monitor_cmd(f\"set_link p\x7bindex:02d\x7d off\", wait=True)",
    "    except Exception:",
    "        vr.logger.exception(\"failed to initialise one or more DNLAB warm ports\")",
    "    finally:",
    "        # Never strand QEMU in the paused state because of a bad override or",
    "        # a template-specific NIC mismatch.",
    "        with lock:",
    "            vm._qemu_monitor_cmd(\"cont\", wait=True)",
    "",
    "    def wait_monitor(timeout=300.0):",
    "        deadline = _time.monotonic() + timeout",
    "        while _time.monotonic() < deadline:",
    "            if getattr(vm, \"running\", False):",
    "                if monitor_ready():",
    "                    return",
    "            _time.sleep(0.05)",
    "        raise TimeoutError(\"QEMU monitor did not become ready\")",
    "",
    "    def set_link(iface, state):",
    "        match = _re.fullmatch(r\"eth([1-9][0-9]*)\", iface)",
    "        if not match:",
    "            raise ValueError(\"interface must match ethN with N >= 1\")",
    "        index = int(match.group(1))",
    "        if index > warm_ports:",
    "            raise ValueError(f\"\x7biface\x7d exceeds configured warm-port count \x7bwarm_ports\x7d\")",
    "        if state not in \x7b\"up\", \"down\"\x7d:",
    "            raise ValueError(\"state must be up or down\")",
    "        wait_monitor()",
    "        with lock:",
    "            vm._qemu_monitor_cmd(",
    "                f\"set_link p\x7bindex:02d\x7d \x7b'on' if state == 'up' else 'off'\x7d\",",
    "                wait=True,",
    "            )",
    "",
    "    with server:",
    "        while True:",
    "            conn, _ = server.accept()",
    "            with conn:",
    "                try:",
    "                    request = conn.recv(4096).decode().strip().split()",
    "                    if len(request) != 2:",
    "                        raise ValueError(\"request must be: ethN up|down\")",
    "                    set_link(request[0], request[1])",
    "                    response = f\"OK \x7brequest[0]\x7d \x7brequest[1]\x7d\\n\"",
    "                except Exception as exc:",
    "                    response = f\"ERROR \x7btype(exc).__name__\x7d: \x7bexc\x7d\\n\"",
    "                try:",
    "                    conn.sendall(response.encode())",
    "                except BrokenPipeError:",
    "                    pass",
    "",
    "",
    "_dnlab_original_vr_start = VR.start",
    "",
    "",
    "def _dnlab_vr_start(self):",
    "    import threading as _threading",
    "    try:",
    "        warm_ports = int(os.environ.get(\"DNLAB_WARM_PORTS\", \"0\") or 0)",
    "    except (TypeError, ValueError):",
    "        warm_ports = 0",
    "        self.logger.error(\"DNLAB_WARM_PORTS must be an integer\")",
    "    if warm_ports > 0:",
    "        _threading.Thread(",
    "            target=_dnlab_warm_link_controller,",
    "            args=(self,),",
    "            name=\"dnlab-warm-links\",",
    "            daemon=True,",
    "        ).start()",
    "    return _dnlab_original_vr_start(self)",
    "",
    "",
    "VR.start = _dnlab_vr_start"]

/-- `controller`. -/
def controller : List Char :=
  "\n\n".toList ++ warmLinkMarker ++ '\n' :: unlines controllerLines

/-- The class that the controller is put before. -/
def qemuBroken : Substitution where
  lead := ['\n']
  statement := "class QemuBroken".toList
  trail := []
  inserted := controller ++ "\n\n".toList
  replacement := "class QemuBroken".toList

/-- `patch_warm_links(text)`. -/
def patchWarmLinks (text : List Char) : Patched :=
  if warmLinkMarker <:+: text then ⟨text, true, []⟩
  else if ¬delay.anchor <:+: text ∨ ¬qemuBroken.statement <:+: text then ⟨text, false, []⟩
  else
    let polled := delay.apply text
    if ¬qemu.anchor <:+: polled then ⟨polled, false, delay.made text⟩
    else
      let paused := qemu.apply polled
      ⟨qemuBroken.apply paused, true, delay.made text ++ qemu.made polled ++ qemuBroken.made paused⟩

end Dnlab.ImageBuild
