import BootyCall.Http.Server
import BootyCall.Lib.Jinja

namespace BootyCall.Http.Scripts

open BootyCall.Core State Server Lib.Jinja Lib.Lines

/-- The names of `expr.attr` and of the loop counter as the templates write them. -/
def serverIpPort : Expr := .var "server_ip_port"
def loopIndex : Expr := .attr (.var "loop") "index"
def hostAttr (field : String) : Expr := .attr (.var "host") field

/-- `BOOT_TEMPLATE`; the engine drops the line break that ends a template. -/
def bootTemplateText : Template :=
  .text ["#!ipxe", ""] <|
  .cond (.var "target_of")
    (.text ["echo Booting target "] <| .emit (.var "name") <| .text [" for host "] <|
      .emit (.var "target_of") <| .text ["...", ""] .done)
    (.text ["echo Booting "] <| .emit (.var "name") <| .text ["...", ""] .done) <|
  .text ["kernel http://"] <| .emit serverIpPort <| .text ["/cache/"] <| .emit (.var "mac") <|
  .text ["/kernel "] <| .emit (.var "cmdline") <|
  .text ["", "initrd http://"] <| .emit serverIpPort <| .text ["/cache/"] <|
  .emit (.var "mac") <| .text ["/initrd", "boot"] .done

def menuTemplateText : Template :=
  .text ["#!ipxe", "", "# Load wallpaper if available", "chain --timeout 5000 http://"] <|
  .emit serverIpPort <|
  .text ["/dynamic/wallpaper.ipxe || echo Failed to load dynamic wallpaper", "", ":menu",
    "menu BootyCall Network Boot Menu", ""] <|
  .each "host" (.var "hosts")
    (.text ["", "item host_"] <| .emit loopIndex <| .text [" "] <| .emit (hostAttr "name") <|
      .text ["", ""] .done) <|
  .text ["", "item shell Enter iPXE shell", "item reboot Reboot system", "",
    "choose --default host_1 --timeout 30000 target || goto menu", "", "# Handle targets", ""] <|
  .each "host" (.var "hosts")
    (.text ["", ":host_"] <| .emit loopIndex <| .text ["", "echo Booting "] <|
      .emit (hostAttr "name") <| .text ["...", "kernel http://"] <| .emit serverIpPort <|
      .text ["/cache/"] <| .emit (hostAttr "mac") <| .text ["/kernel "] <|
      .emit (.default (hostAttr "cmdline") "") <| .text ["", "initrd http://"] <|
      .emit serverIpPort <| .text ["/cache/"] <| .emit (hostAttr "mac") <|
      .text ["/initrd", "boot", ""] .done) <|
  .text ["", "", ":shell", "shell", "goto menu", "", ":reboot", "reboot"] .done

/-- `HeaderValue::to_str`: printable ASCII and tabs. -/
def toStr (value : List UInt8) : Option String :=
  if value.all fun b ↦ decide (32 ≤ b ∧ b < 127 ∨ b = 9) then
    some (String.ofList (value.map fun b ↦ Char.ofNat b.toNat))
  else none

def hostHeader (host : Option (List UInt8)) : String :=
  (host.bind toStr).getD "localhost:8080"

def hostValue (host : HostConfig) : Value :=
  .map [("mac", .str host.mac), ("name", .str host.name), ("image_path", .str host.imagePath),
    ("bootloader", .ofOption host.bootloader), ("kernel_path", .ofOption host.kernelPath),
    ("initrd_path", .ofOption host.initrdPath), ("cmdline", .ofOption host.cmdline)]

def bootContext (hostHdr : String) (host : HostConfig) (targetOf : Option String) : Env :=
  [("name", .str host.name), ("server_ip_port", .str hostHdr), ("mac", .str host.mac),
    ("cmdline", .str (host.cmdline.getD "")), ("target_of", .ofOption targetOf)]

def menuContext (hostHdr : String) (config : Config) : Env :=
  [("server_ip_port", .str hostHdr), ("hosts", .seq (config.hosts.map hostValue))]

def bootTemplate (hostHdr : String) : BootTemplate := fun host targetOf ↦
  (bootTemplateText.render (bootContext hostHdr host targetOf)).map String.ofList

def menu (host : Option (List UInt8)) (config : Config) : String :=
  match menuTemplateText.render (menuContext (hostHeader host) config) with
  | some rendered => String.ofList rendered
  | none => "#!ipxe\necho Menu error\nexit\n"

/-- The lines both scripts boot a host with; only the command line is printed differently. -/
def kernelLine (hostHdr mac : String) (cmdline : List Char) : List Char :=
  "kernel http://".toList ++ hostHdr.toList ++ "/cache/".toList ++ mac.toList ++
    "/kernel ".toList ++ cmdline

def initrdLine (hostHdr mac : String) : List Char :=
  "initrd http://".toList ++ hostHdr.toList ++ "/cache/".toList ++ mac.toList ++ "/initrd".toList

def echoLine (host : HostConfig) (targetOf : Option String) : List Char :=
  match targetOf with
  | some mac =>
    "echo Booting target ".toList ++ host.name.toList ++ " for host ".toList ++ mac.toList ++
      "...".toList
  | none => "echo Booting ".toList ++ host.name.toList ++ "...".toList

def bootLines (hostHdr : String) (host : HostConfig) (targetOf : Option String) :
    List (List Char) :=
  ["#!ipxe".toList, echoLine host targetOf,
    kernelLine hostHdr host.mac (host.cmdline.getD "").toList, initrdLine hostHdr host.mac]

theorem render_boot (hostHdr : String) (host : HostConfig) {targetOf : Option String}
    (htarget : targetOf ≠ some "") :
    bootTemplateText.render (bootContext hostHdr host targetOf) =
      some (unlines (bootLines hostHdr host targetOf) ++ "boot".toList) := by
  have hname : (Expr.var "name").eval (bootContext hostHdr host targetOf) =
      some (.str host.name) := rfl
  have hserver : serverIpPort.eval (bootContext hostHdr host targetOf) =
      some (.str hostHdr) := rfl
  have hmac : (Expr.var "mac").eval (bootContext hostHdr host targetOf) =
      some (.str host.mac) := rfl
  have hcmdline : (Expr.var "cmdline").eval (bootContext hostHdr host targetOf) =
      some (.str (host.cmdline.getD "")) := rfl
  have htargetOf : (Expr.var "target_of").eval (bootContext hostHdr host targetOf) =
      some (.ofOption targetOf) := rfl
  rw [bootTemplateText, Template.render_text,
    Template.render_cond (t := echoLine host targetOf ++ ['\n']) htargetOf]
  · simp only [Template.render_text, Template.render_emit hserver rfl,
      Template.render_emit hmac rfl, Template.render_emit hcmdline rfl, Template.render_done,
      Option.map_some, chars, unlines, bootLines, List.flatMap_cons, List.flatMap_nil,
      -String.reduceToList]
    delta kernelLine initrdLine
    simp only [List.append_assoc, List.cons_append, List.nil_append, List.append_nil,
      String.toList_empty, -String.reduceToList]
  · cases targetOf with
    | none =>
      rw [if_neg (by simp [Value.ofOption, Value.isTrue])]
      simp only [Template.render_text, Template.render_emit hname rfl, Template.render_done,
        Option.map_some, chars, -String.reduceToList]
      delta echoLine
      simp only [List.append_assoc, List.append_nil, String.toList_empty, -String.reduceToList]
    | some mac =>
      have hne : mac ≠ "" := fun h ↦ htarget (congrArg some h)
      rw [if_pos (by simpa [Value.ofOption, Value.isTrue] using hne)]
      simp only [Template.render_text, Template.render_emit hname rfl,
        Template.render_emit htargetOf rfl, Template.render_done, Option.map_some, chars,
        -String.reduceToList]
      delta echoLine
      simp only [List.append_assoc, List.append_nil, String.toList_empty, -String.reduceToList]

def bootScript (hostHdr : String) (host : HostConfig) (targetOf : Option String) : String :=
  String.ofList (unlines (bootLines hostHdr host targetOf) ++ "boot".toList)

theorem bootTemplate_eq (hostHdr : String) (host : HostConfig) {targetOf : Option String}
    (htarget : targetOf ≠ some "") :
    bootTemplate hostHdr host targetOf = some (bootScript hostHdr host targetOf) := by
  rw [bootTemplate, render_boot hostHdr host htarget, Option.map_some, bootScript]

def itemLine (p : HostConfig × ℕ) : List Char :=
  "item host_".toList ++ (Nat.repr p.2).toList ++ " ".toList ++ p.1.name.toList

def labelLine (i : ℕ) : List Char := ":host_".toList ++ (Nat.repr i).toList

def hostLines (hostHdr : String) (p : HostConfig × ℕ) : List (List Char) :=
  ["".toList, labelLine p.2, echoLine p.1 none,
    kernelLine hostHdr p.1.mac (p.1.cmdline.getD "none").toList, initrdLine hostHdr p.1.mac,
    "boot".toList]

def menuHead (hostHdr : String) : List (List Char) :=
  ["#!ipxe".toList, "".toList, "# Load wallpaper if available".toList,
    "chain --timeout 5000 http://".toList ++ hostHdr.toList ++
      "/dynamic/wallpaper.ipxe || echo Failed to load dynamic wallpaper".toList,
    "".toList, ":menu".toList, "menu BootyCall Network Boot Menu".toList]

def menuMiddle : List (List Char) :=
  ["".toList, "item shell Enter iPXE shell".toList, "item reboot Reboot system".toList, "".toList,
    "choose --default host_1 --timeout 30000 target || goto menu".toList, "".toList,
    "# Handle targets".toList]

def menuTail : List (List Char) :=
  ["".toList, "".toList, ":shell".toList, "shell".toList, "goto menu".toList, "".toList,
    ":reboot".toList]

def menuLines (hostHdr : String) (config : Config) : List (List Char) :=
  menuHead hostHdr ++ ((config.hosts.zipIdx 1).flatMap fun p ↦ ["".toList, itemLine p]) ++
    menuMiddle ++ (config.hosts.zipIdx 1).flatMap (hostLines hostHdr) ++ menuTail

def hostEnv (hostHdr : String) (config : Config) (p : HostConfig × ℕ) : Env :=
  Template.loopEnv (menuContext hostHdr config) "host" (hostValue p.1, p.2)

theorem eval_cmdline (hostHdr : String) (config : Config) (p : HostConfig × ℕ) :
    ∃ v, (Expr.default (hostAttr "cmdline") "").eval (hostEnv hostHdr config p) = some v ∧
      v.print = some (p.1.cmdline.getD "none").toList := by
  have hattr : (hostAttr "cmdline").eval (hostEnv hostHdr config p) =
      some (.ofOption p.1.cmdline) := rfl
  rw [Expr.eval, hattr, Option.map_some]
  cases p.1.cmdline with
  | none => exact ⟨.none, rfl, rfl⟩
  | some cmdline => exact ⟨.str cmdline, rfl, rfl⟩

theorem render_menu (hostHdr : String) (config : Config) :
    menuTemplateText.render (menuContext hostHdr config) =
      some (unlines (menuLines hostHdr config) ++ "reboot".toList) := by
  have hserver : serverIpPort.eval (menuContext hostHdr config) = some (.str hostHdr) := rfl
  have hhosts : (Expr.var "hosts").eval (menuContext hostHdr config) =
      some (.seq (config.hosts.map hostValue)) := rfl
  rw [menuTemplateText, Template.render_text, Template.render_emit hserver rfl,
    Template.render_text,
    Template.render_each (f := fun p ↦ unlines ["".toList, itemLine p]) hhosts rfl,
    Template.render_text,
    Template.render_each (f := fun p ↦ unlines (hostLines hostHdr p)) hhosts rfl,
    Template.render_text, Template.render_done]
  · rw [menuLines, unlines_append, unlines_append, unlines_append, unlines_append,
      unlines_flatMap, unlines_flatMap]
    simp only [Option.map_some, chars, menuHead, menuMiddle, menuTail, unlines,
      List.flatMap_cons, List.flatMap_nil, List.append_assoc, List.cons_append, List.nil_append,
      List.append_nil, String.toList_empty, -String.reduceToList]
  · intro p _
    have hindex : loopIndex.eval (hostEnv hostHdr config p) = some (.int p.2) := rfl
    have hname : (hostAttr "name").eval (hostEnv hostHdr config p) = some (.str p.1.name) := rfl
    have hmac : (hostAttr "mac").eval (hostEnv hostHdr config p) = some (.str p.1.mac) := rfl
    have hserver' : serverIpPort.eval (hostEnv hostHdr config p) = some (.str hostHdr) := rfl
    obtain ⟨v, hcmdline, hprint⟩ := eval_cmdline hostHdr config p
    change Template.render _ (hostEnv hostHdr config p) = _
    simp only [Template.render_text, Template.render_emit hindex rfl,
      Template.render_emit hname rfl, Template.render_emit hmac rfl,
      Template.render_emit hserver' rfl, Template.render_emit hcmdline hprint,
      Template.render_done, Option.map_some, chars, unlines, hostLines, List.flatMap_cons,
      List.flatMap_nil, -String.reduceToList]
    delta labelLine echoLine kernelLine initrdLine
    simp only [List.append_assoc, List.cons_append, List.nil_append, List.append_nil,
      String.toList_empty, -String.reduceToList]
  · intro p _
    have hindex : loopIndex.eval (hostEnv hostHdr config p) = some (.int p.2) := rfl
    have hname : (hostAttr "name").eval (hostEnv hostHdr config p) = some (.str p.1.name) := rfl
    change Template.render _ (hostEnv hostHdr config p) = _
    simp only [Template.render_text, Template.render_emit hindex rfl,
      Template.render_emit hname rfl, Template.render_done, Option.map_some, chars, unlines,
      List.flatMap_cons, List.flatMap_nil, -String.reduceToList]
    delta itemLine
    simp only [List.append_assoc, List.cons_append, List.nil_append, List.append_nil,
      String.toList_empty, -String.reduceToList]

end BootyCall.Http.Scripts
