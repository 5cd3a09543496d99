import BootyCall.Http.Scripts
import BootyCall.Lib.Utf8
import Mathlib.Data.List.Count
import Mathlib.Data.List.DropRight
import Std.Data.String.ToNat

namespace BootyCall.Http.Menu

open BootyCall.Core Mac State Server Scripts Lib.Jinja Lib.Lines

abbrev Line := List Char

/-- The label a line declares, if it is one. -/
def labelName : Line → Option Line
  | c :: name => if c = ':' then some name else none
  | [] => none

def itemTarget (l : Line) : Option Line :=
  if "item ".toList <+: l then some ((l.drop 5).takeWhile (· ≠ ' ')) else none

/-- The lines from a label on to the next one. -/
def under (label : Line) (lines : List Line) : List Line :=
  ((lines.dropWhile fun l ↦ labelName l ≠ some label).tail).takeWhile
    fun l ↦ labelName l = none

def commands (word : Line) (lines : List Line) : List Line :=
  lines.filter fun l ↦ l.takeWhile (· ≠ ' ') = word

def trimEnd (l : Line) : Line := l.rdropWhile (· = ' ')

def hostLabel (i : ℕ) : Line := "host_".toList ++ (Nat.repr i).toList

/-- Kernel and initrd are loaded by the same commands, up to spaces at their ends. -/
def SameCommands (lines lines' : List Line) : Prop :=
  ∀ word ∈ ["kernel".toList, "initrd".toList],
    (commands word lines).map trimEnd = (commands word lines').map trimEnd

theorem hostLabel_injective : Function.Injective hostLabel := fun _ _ h ↦
  Nat.repr_injective (String.toList_inj.mp (List.append_cancel_left h))

theorem labelName_labelLine (i : ℕ) : labelName (labelLine i) = some (hostLabel i) := by
  delta hostLabel labelLine
  simp [labelName]

theorem labelName_itemLine (p : HostConfig × ℕ) : labelName (itemLine p) = none := by
  delta itemLine
  simp [labelName]

theorem digit_ne {c d : Char} {i : ℕ} (hc : c ∈ (Nat.repr i).toList) (hd : d.isDigit = false) :
    c ≠ d := by
  rintro rfl
  rw [Nat.toList_repr] at hc
  have hdigit := Nat.isDigit_of_mem_toDigits (b := 10) (by decide) le_rfl hc
  simp [hdigit] at hd

theorem itemTarget_itemLine (p : HostConfig × ℕ) :
    itemTarget (itemLine p) = some (hostLabel p.2) := by
  have hdigits : ∀ c ∈ Nat.toDigits 10 p.2, (!decide (c = ' ')) = true := by
    intro c hc
    simpa using digit_ne (by simpa using hc) (by decide)
  rw [itemTarget]
  delta hostLabel itemLine
  simp [List.takeWhile_append_of_pos hdigits]

theorem takeWhile_word {word l : Line} (h : ' ' ∉ word) :
    (word ++ ' ' :: l).takeWhile (· ≠ ' ') = word := by
  have hword : ∀ c ∈ word, decide (c ≠ ' ') = true := by
    intro c hc
    simp only [decide_eq_true_eq]
    rintro rfl
    exact h hc
  rw [List.takeWhile_append_of_pos hword]
  simp

theorem itemTarget_word {word l : Line} (hw : ' ' ∉ word) (hne : word ≠ "item".toList) :
    itemTarget (word ++ ' ' :: l) = none := by
  have hitem : ' ' ∉ "item".toList := by decide
  rw [itemTarget, if_neg]
  rintro ⟨rest, hrest⟩
  have hsplit : "item ".toList ++ rest = "item".toList ++ ' ' :: rest := rfl
  have hfirst := congrArg (List.takeWhile (· ≠ ' ')) hrest
  rw [hsplit, takeWhile_word hitem, takeWhile_word hw] at hfirst
  exact hne hfirst.symm

theorem kernelLine_eq (hostHdr mac : String) (cmdline : Line) : ∃ rest,
    kernelLine hostHdr mac cmdline = "kernel".toList ++ ' ' :: rest := by
  delta kernelLine
  simp

theorem initrdLine_eq (hostHdr mac : String) : ∃ rest,
    initrdLine hostHdr mac = "initrd".toList ++ ' ' :: rest := by
  delta initrdLine
  simp

theorem echoLine_eq (host : HostConfig) (targetOf : Option String) : ∃ rest,
    echoLine host targetOf = "echo".toList ++ ' ' :: rest := by
  delta echoLine
  cases targetOf <;> simp

theorem commands_append (word : Line) (lines lines' : List Line) :
    commands word (lines ++ lines') = commands word lines ++ commands word lines' :=
  List.filter_append ..

theorem commands_cons {word w rest : Line} {lines : List Line} (hw : ' ' ∉ w) :
    commands word ((w ++ ' ' :: rest) :: lines) =
      if w = word then (w ++ ' ' :: rest) :: commands word lines else commands word lines := by
  rw [commands, List.filter_cons, takeWhile_word hw]
  simp only [decide_eq_true_eq]
  rfl

def block (hostHdr : String) (host : HostConfig) (targetOf : Option String) (cmdline : Line) :
    List Line :=
  [echoLine host targetOf, kernelLine hostHdr host.mac cmdline, initrdLine hostHdr host.mac,
    "boot".toList]

theorem commands_block (hostHdr : String) (host : HostConfig) (targetOf : Option String)
    (cmdline : Line) :
    commands "kernel".toList (block hostHdr host targetOf cmdline) =
        [kernelLine hostHdr host.mac cmdline] ∧
      commands "initrd".toList (block hostHdr host targetOf cmdline) =
        [initrdLine hostHdr host.mac] := by
  obtain ⟨echo, he⟩ := echoLine_eq host targetOf
  obtain ⟨kernel, hk⟩ := kernelLine_eq hostHdr host.mac cmdline
  obtain ⟨initrd, hi⟩ := initrdLine_eq hostHdr host.mac
  have hecho : ' ' ∉ "echo".toList := by decide
  have hkernel : ' ' ∉ "kernel".toList := by decide
  have hinitrd : ' ' ∉ "initrd".toList := by decide
  rw [block, he, hk, hi]
  constructor
  · rw [commands_cons hecho, commands_cons hkernel, commands_cons hinitrd, if_neg (by decide),
      if_pos rfl, if_neg (by decide)]
    rfl
  · rw [commands_cons hecho, commands_cons hkernel, commands_cons hinitrd, if_neg (by decide),
      if_neg (by decide), if_pos rfl]
    rfl

theorem labelName_block (hostHdr : String) (host : HostConfig) (targetOf : Option String)
    (cmdline : Line) : ∀ l ∈ block hostHdr host targetOf cmdline, labelName l = none := by
  obtain ⟨echo, he⟩ := echoLine_eq host targetOf
  obtain ⟨kernel, hk⟩ := kernelLine_eq hostHdr host.mac cmdline
  obtain ⟨initrd, hi⟩ := initrdLine_eq hostHdr host.mac
  simp [block, he, hk, hi, labelName]

theorem itemTarget_block (hostHdr : String) (host : HostConfig) (targetOf : Option String)
    (cmdline : Line) : ∀ l ∈ block hostHdr host targetOf cmdline, itemTarget l = none := by
  obtain ⟨echo, he⟩ := echoLine_eq host targetOf
  obtain ⟨kernel, hk⟩ := kernelLine_eq hostHdr host.mac cmdline
  obtain ⟨initrd, hi⟩ := initrdLine_eq hostHdr host.mac
  have hboot : itemTarget "boot".toList = none := by decide
  rw [block, he, hk, hi]
  simp only [List.forall_mem_cons, List.not_mem_nil, IsEmpty.forall_iff, implies_true, and_true]
  exact ⟨itemTarget_word (by decide) (by decide), itemTarget_word (by decide) (by decide),
    itemTarget_word (by decide) (by decide), hboot⟩

theorem hostLines_eq (hostHdr : String) (p : HostConfig × ℕ) :
    hostLines hostHdr p = "".toList :: labelLine p.2 ::
      block hostHdr p.1 none (p.1.cmdline.getD "none").toList := rfl

theorem under_append {label : Line} {pre rest : List Line}
    (h : ∀ l ∈ pre, labelName l ≠ some label) : under label (pre ++ rest) = under label rest := by
  rw [under, List.dropWhile_append_of_pos fun l hl ↦ by simpa using h l hl]
  rfl

theorem under_label {i : ℕ} {rest : List Line} :
    under (hostLabel i) (labelLine i :: rest) = rest.takeWhile fun l ↦ labelName l = none := by
  rw [under, List.dropWhile_cons_of_neg (by simp [labelName_labelLine]), List.tail_cons]

theorem labels_menuHead (hostHdr : String) :
    (menuHead hostHdr).filterMap labelName = ["menu".toList] := by
  simp [menuHead, labelName, List.filterMap_cons]

theorem items_menuHead (hostHdr : String) : (menuHead hostHdr).filterMap itemTarget = [] := by
  simp [menuHead, itemTarget]

theorem labels_menuMiddle : menuMiddle.filterMap labelName = [] := by
  decide +kernel

theorem items_menuMiddle :
    menuMiddle.filterMap itemTarget = ["shell".toList, "reboot".toList] := by
  decide +kernel

theorem labels_menuTail : menuTail.filterMap labelName = ["shell".toList, "reboot".toList] := by
  decide +kernel

theorem items_menuTail : menuTail.filterMap itemTarget = [] := by
  decide +kernel

theorem labels_hostLines (hostHdr : String) (p : HostConfig × ℕ) :
    (hostLines hostHdr p).filterMap labelName = [hostLabel p.2] := by
  rw [hostLines_eq, List.filterMap_cons, List.filterMap_cons, labelName_labelLine,
    List.filterMap_eq_nil_iff.mpr (labelName_block _ _ _ _)]
  rfl

theorem items_hostLines (hostHdr : String) (p : HostConfig × ℕ) :
    (hostLines hostHdr p).filterMap itemTarget = [] := by
  have hlabel : itemTarget (labelLine p.2) = none := by
    rw [itemTarget]
    delta labelLine
    simp
  rw [hostLines_eq, List.filterMap_cons, List.filterMap_cons, hlabel,
    List.filterMap_eq_nil_iff.mpr (itemTarget_block _ _ _ _)]
  rfl

def hostLabels (config : Config) : List Line :=
  (config.hosts.zipIdx 1).map fun p ↦ hostLabel p.2

theorem items_menuLines (hostHdr : String) (config : Config) :
    (menuLines hostHdr config).filterMap itemTarget =
      hostLabels config ++ ["shell".toList, "reboot".toList] := by
  have hitem (p : HostConfig × ℕ) :
      ["".toList, itemLine p].filterMap itemTarget = [hostLabel p.2] := by
    have hblank : itemTarget "".toList = none := by decide
    rw [List.filterMap_cons, List.filterMap_cons, itemTarget_itemLine, hblank, List.filterMap_nil]
  simp only [menuLines, List.filterMap_append, List.filterMap_flatMap, items_menuHead, hitem,
    items_menuMiddle, items_hostLines, items_menuTail, hostLabels, List.nil_append,
    List.append_nil, ← List.map_eq_flatMap, -String.reduceToList]
  simp

theorem labels_itemLines (ps : List (HostConfig × ℕ)) :
    (ps.flatMap fun p ↦ ["".toList, itemLine p]).filterMap labelName = [] := by
  rw [List.filterMap_eq_nil_iff]
  intro l hl
  obtain ⟨p, -, hl⟩ := List.mem_flatMap.mp hl
  rcases List.mem_pair.mp hl with rfl | rfl
  · rfl
  · exact labelName_itemLine p

theorem labels_menuLines (hostHdr : String) (config : Config) :
    (menuLines hostHdr config).filterMap labelName =
      "menu".toList :: hostLabels config ++ ["shell".toList, "reboot".toList] := by
  rw [menuLines, List.filterMap_append, List.filterMap_append, List.filterMap_append,
    List.filterMap_append, labels_itemLines, labels_menuHead, labels_menuMiddle, labels_menuTail,
    List.filterMap_flatMap, List.append_nil, List.append_nil, hostLabels, List.map_eq_flatMap]
  simp only [labels_hostLines]
  rfl

theorem hostLabel_ne {i : ℕ} {name : Line} (h : name.head? ≠ some 'h') : hostLabel i ≠ name := by
  rintro rfl
  delta hostLabel at h
  simp at h

theorem count_hostLabels {config : Config} {i : ℕ} (hi : i < config.hosts.length) :
    (hostLabels config).count (hostLabel (i + 1)) = 1 := by
  have hmap : hostLabels config = (List.range' 1 config.hosts.length).map hostLabel := by
    rw [hostLabels, ← List.zipIdx_map_snd 1 config.hosts, List.map_map]
    rfl
  rw [hmap, List.count_map_of_injective _ _ hostLabel_injective, List.count_range']
  exact if_pos ⟨i, hi, by omega⟩

theorem blank_until_label (hostHdr : String) (post : List (HostConfig × ℕ)) (last : List Line) :
    ∃ blanks, (∀ l ∈ blanks, l = []) ∧
      (post.flatMap (hostLines hostHdr) ++ menuTail ++ last).takeWhile
        (fun l ↦ labelName l = none) = blanks := by
  have hblank : labelName "".toList = none := rfl
  cases post with
  | nil =>
    have hshell : labelName ":shell".toList = some "shell".toList := by decide
    refine ⟨["".toList, "".toList], by simp, ?_⟩
    simp only [List.flatMap_nil, List.nil_append, menuTail, List.cons_append, List.takeWhile_cons,
      hblank, hshell, decide_true, if_true, reduceCtorEq, decide_false, Bool.false_eq_true,
      if_false, -String.reduceToList]
  | cons p post =>
    refine ⟨["".toList], by simp, ?_⟩
    simp only [List.flatMap_cons, hostLines_eq, List.cons_append, List.takeWhile_cons, hblank,
      labelName_labelLine, decide_true, if_true, reduceCtorEq, decide_false, Bool.false_eq_true,
      if_false, -String.reduceToList]

theorem zipIdx_split {α : Type} {as : List α} {i : ℕ} {a : α} (h : as[i]? = some a) (n : ℕ) :
    as.zipIdx n = (as.take i).zipIdx n ++ (a, n + i) :: (as.drop (i + 1)).zipIdx (n + i + 1) := by
  obtain ⟨hlt, rfl⟩ := List.getElem?_eq_some_iff.mp h
  have hlen : (as.take i).length = i := List.length_take_of_le hlt.le
  conv_lhs => rw [← List.take_append_drop i as, List.drop_eq_getElem_cons hlt]
  rw [List.zipIdx_append, hlen, List.zipIdx_cons]

theorem menuLines_split {hostHdr : String} {config : Config} {i : ℕ} {host : HostConfig}
    (hi : config.hosts[i]? = some host) :
    ∃ (pre : List Line) (post : List (HostConfig × ℕ)), menuLines hostHdr config =
        pre ++ labelLine (1 + i) :: (block hostHdr host none (host.cmdline.getD "none").toList ++
          (post.flatMap (hostLines hostHdr) ++ menuTail)) ∧
      ∀ l ∈ pre, labelName l ≠ some (hostLabel (1 + i)) := by
  have hblocks : (config.hosts.zipIdx 1).flatMap (hostLines hostHdr) =
      ((config.hosts.take i).zipIdx 1).flatMap (hostLines hostHdr) ++
        (hostLines hostHdr (host, 1 + i) ++
          ((config.hosts.drop (i + 1)).zipIdx (1 + i + 1)).flatMap (hostLines hostHdr)) := by
    rw [zipIdx_split hi, List.flatMap_append, List.flatMap_cons]
  refine ⟨menuHead hostHdr ++ ((config.hosts.zipIdx 1).flatMap fun p ↦ ["".toList, itemLine p]) ++
    menuMiddle ++ ((config.hosts.take i).zipIdx 1).flatMap (hostLines hostHdr) ++ ["".toList],
    (config.hosts.drop (i + 1)).zipIdx (1 + i + 1), ?_, fun l hl hlabel ↦ ?_⟩
  · rw [menuLines, hblocks, hostLines_eq]
    simp only [List.append_assoc, List.cons_append, List.nil_append]
  · have hmem := List.mem_filterMap.mpr ⟨l, hl, hlabel⟩
    rw [List.filterMap_append, List.filterMap_append, List.filterMap_append,
      List.filterMap_append, labels_itemLines, labels_menuHead, labels_menuMiddle,
      List.filterMap_flatMap] at hmem
    simp only [labels_hostLines, ← List.map_eq_flatMap, List.append_nil, List.mem_append,
      List.mem_singleton, List.mem_map, -String.reduceToList] at hmem
    rcases hmem with (hmenu | ⟨p, hp, hindex⟩) | hblank
    · exact hostLabel_ne (by decide) hmenu
    · have hlt := List.snd_lt_add_of_mem_zipIdx hp
      have hlen := List.length_take_le i config.hosts
      have hp2 := hostLabel_injective hindex
      omega
    · exact List.not_mem_nil hblank

theorem under_host (hostHdr : String) {config : Config} {i : ℕ} {host : HostConfig}
    (hi : config.hosts[i]? = some host) (last : List Line) :
    ∃ blanks, (∀ l ∈ blanks, l = []) ∧
      under (hostLabel (1 + i)) (menuLines hostHdr config ++ last) =
        block hostHdr host none (host.cmdline.getD "none").toList ++ blanks := by
  obtain ⟨pre, post, hsplit, hpre⟩ := menuLines_split hi
  obtain ⟨blanks, hblanks, htake⟩ := blank_until_label hostHdr post last
  refine ⟨blanks, hblanks, ?_⟩
  rw [hsplit, List.append_assoc, under_append hpre, List.cons_append, under_label,
    List.append_assoc, List.takeWhile_append_of_pos, htake]
  intro l hl
  simpa using labelName_block _ _ _ _ l hl

/-- No text of a host breaks a line of the scripts. -/
def Unbroken (host : HostConfig) : Prop :=
  '\n' ∉ host.mac.toList ∧ '\n' ∉ host.name.toList ∧
    ∀ cmdline, host.cmdline = some cmdline → '\n' ∉ cmdline.toList

theorem unbroken_echoLine {host : HostConfig} (h : Unbroken host) {targetOf : Option String}
    (htarget : ∀ mac, targetOf = some mac → '\n' ∉ mac.toList) :
    '\n' ∉ echoLine host targetOf := by
  delta echoLine
  cases targetOf with
  | none => simp [h.2.1]
  | some mac => simp [h.2.1, htarget mac rfl]

theorem unbroken_kernelLine {hostHdr : String} {host : HostConfig} (h : Unbroken host)
    (hserver : '\n' ∉ hostHdr.toList) {cmdline : Line} (hcmdline : '\n' ∉ cmdline) :
    '\n' ∉ kernelLine hostHdr host.mac cmdline := by
  delta kernelLine
  simp [h.1, hserver, hcmdline]

theorem unbroken_initrdLine {hostHdr : String} {host : HostConfig} (h : Unbroken host)
    (hserver : '\n' ∉ hostHdr.toList) : '\n' ∉ initrdLine hostHdr host.mac := by
  delta initrdLine
  simp [h.1, hserver]

theorem unbroken_cmdline {host : HostConfig} (h : Unbroken host) {absent : String}
    (habsent : '\n' ∉ absent.toList) : '\n' ∉ (host.cmdline.getD absent).toList := by
  cases hc : host.cmdline with
  | none => exact habsent
  | some cmdline => exact h.2.2 cmdline hc

theorem unbroken_bootLines {hostHdr : String} {host : HostConfig} (h : Unbroken host)
    (hserver : '\n' ∉ hostHdr.toList) {targetOf : Option String}
    (htarget : ∀ mac, targetOf = some mac → '\n' ∉ mac.toList) :
    ∀ l ∈ bootLines hostHdr host targetOf, '\n' ∉ l := by
  rw [bootLines]
  simp only [List.forall_mem_cons, List.not_mem_nil, IsEmpty.forall_iff, implies_true,
    and_true]
  exact ⟨by decide, unbroken_echoLine h htarget,
    unbroken_kernelLine h hserver (unbroken_cmdline h (by decide)), unbroken_initrdLine h hserver⟩

theorem unbroken_hostLines {hostHdr : String} {p : HostConfig × ℕ} (h : Unbroken p.1)
    (hserver : '\n' ∉ hostHdr.toList) : ∀ l ∈ hostLines hostHdr p, '\n' ∉ l := by
  have hlabel : '\n' ∉ labelLine p.2 := by
    delta labelLine
    rw [List.mem_append, not_or]
    exact ⟨by decide, fun hc ↦ digit_ne hc (by decide) rfl⟩
  rw [hostLines]
  simp only [List.forall_mem_cons, List.not_mem_nil, IsEmpty.forall_iff, implies_true,
    and_true]
  exact ⟨by decide, hlabel, unbroken_echoLine h (by simp),
    unbroken_kernelLine h hserver (unbroken_cmdline h (by decide)), unbroken_initrdLine h hserver,
    by decide⟩

theorem unbroken_itemLine {p : HostConfig × ℕ} (h : Unbroken p.1) : '\n' ∉ itemLine p := by
  have hindex : '\n' ∉ (Nat.repr p.2).toList := fun hc ↦ digit_ne hc (by decide) rfl
  delta itemLine
  simp only [List.mem_append, not_or]
  exact ⟨⟨⟨by decide, hindex⟩, by decide⟩, h.2.1⟩

theorem unbroken_menuHead {hostHdr : String} (hserver : '\n' ∉ hostHdr.toList) :
    ∀ l ∈ menuHead hostHdr, '\n' ∉ l := by
  rw [menuHead]
  simp only [List.forall_mem_cons, List.not_mem_nil, IsEmpty.forall_iff, implies_true,
    and_true, List.mem_append, not_or]
  exact ⟨by decide, by decide, by decide, ⟨⟨by decide, hserver⟩, by decide⟩, by decide, by decide,
    by decide⟩

theorem unbroken_menuLines {hostHdr : String} {config : Config}
    (h : ∀ host ∈ config.hosts, Unbroken host) (hserver : '\n' ∉ hostHdr.toList) :
    ∀ l ∈ menuLines hostHdr config, '\n' ∉ l := by
  have hhosts : ∀ p ∈ config.hosts.zipIdx 1, Unbroken p.1 := fun p hp ↦
    h p.1 (List.fst_mem_of_mem_zipIdx hp)
  have hmiddle : ∀ l ∈ menuMiddle, '\n' ∉ l := by decide +kernel
  have htail : ∀ l ∈ menuTail, '\n' ∉ l := by decide +kernel
  intro l hl
  simp only [menuLines, List.mem_append, List.mem_flatMap] at hl
  rcases hl with (((hl | ⟨p, hp, hl⟩) | hl) | ⟨p, hp, hl⟩) | hl
  · exact unbroken_menuHead hserver l hl
  · rcases List.mem_pair.mp hl with rfl | rfl
    · decide
    · exact unbroken_itemLine (hhosts p hp)
  · exact hmiddle l hl
  · exact unbroken_hostLines (hhosts p hp) hserver l hl
  · exact htail l hl

theorem unbroken_toStr {value : List UInt8} {s : String} (h : toStr value = some s) :
    '\n' ∉ s.toList := by
  rw [toStr] at h
  split at h
  · next hall =>
    obtain rfl := Option.some.inj h
    rw [String.toList_ofList]
    intro hmem
    obtain ⟨b, hb, hchar⟩ := List.mem_map.mp hmem
    have hvisible := List.all_eq_true.mp hall b hb
    have hbyte : b.toNat = 10 := by
      rw [← Lib.Utf8.toNat_ofNat (n := b.toNat) (by have := b.toNat_lt; omega), hchar]
      rfl
    simp only [decide_eq_true_eq, UInt8.le_iff_toNat_le, UInt8.lt_iff_toNat_lt,
      ← UInt8.toNat_inj] at hvisible
    simp [hbyte] at hvisible
  · cases h

theorem unbroken_hostHeader (header : Option (List UInt8)) :
    '\n' ∉ (hostHeader header).toList := by
  rw [hostHeader]
  cases hh : header.bind toStr with
  | none => decide
  | some s =>
    obtain ⟨value, -, hs⟩ := Option.bind_eq_some_iff.mp hh
    exact unbroken_toStr hs

theorem unbroken_mac {mac : String} (h : isValidMac mac = true) : '\n' ∉ mac.toList := fun hc ↦
  absurd (char_of_isValidMac h hc) (by decide)

def chosenHost (config : Config) (store : StateStore) (mac : String) : Option HostConfig :=
  config.findHost mac <|> assignedTarget config store mac

theorem decidePollOutcome_chosen (hostHdr : String) {config : Config} {store : StateStore}
    {mac : String} {host : HostConfig} (hmac : isValidMac mac = true)
    (hhost : chosenHost config store mac = some host) :
    ∃ targetOf, (∀ m, targetOf = some m → m = mac) ∧
      decidePollOutcome (bootTemplate hostHdr) config store mac =
        .boot (bootScript hostHdr host targetOf) host.mac := by
  have hempty : some mac ≠ some "" := by
    intro h
    obtain rfl := Option.some.inj h
    exact absurd hmac (by decide)
  rw [decidePollOutcome]
  cases hfind : config.findHost mac with
  | some found =>
    obtain rfl : found = host := by simpa [chosenHost, hfind] using hhost
    refine ⟨none, by simp, ?_⟩
    simp only [rendered, bootTemplate_eq hostHdr found (Option.some_ne_none "").symm]
  | none =>
    have htarget : assignedTarget config store mac = some host := by
      simpa [chosenHost, hfind] using hhost
    refine ⟨some mac, by simp, ?_⟩
    simp only [htarget, rendered, bootTemplate_eq hostHdr host hempty]

theorem linesOf_menu {header : Option (List UInt8)} {config : Config}
    (h : ∀ host ∈ config.hosts, Unbroken host) :
    linesOf (menu header config).toList =
      menuLines (hostHeader header) config ++ ["reboot".toList] := by
  rw [menu, render_menu]
  simp only [String.toList_ofList]
  rw [linesOf_unlines (unbroken_menuLines h (unbroken_hostHeader header))]
  rfl

theorem linesOf_boot {hostHdr : String} {host : HostConfig} {targetOf : Option String}
    (h : Unbroken host) (hserver : '\n' ∉ hostHdr.toList)
    (htarget : ∀ mac, targetOf = some mac → '\n' ∉ mac.toList) :
    linesOf (bootScript hostHdr host targetOf).toList =
      "#!ipxe".toList :: block hostHdr host targetOf (host.cmdline.getD "").toList := by
  rw [bootScript, String.toList_ofList, linesOf_unlines (unbroken_bootLines h hserver htarget)]
  rfl

theorem commands_blank {word : Line} (hword : word ≠ []) {blanks : List Line}
    (h : ∀ l ∈ blanks, l = []) : commands word blanks = [] := by
  rw [commands, List.filter_eq_nil_iff]
  intro l hl
  rw [h l hl]
  simpa using hword.symm

theorem trimEnd_kernelLine (hostHdr mac : String) :
    trimEnd (kernelLine hostHdr mac "none".toList) ≠ trimEnd (kernelLine hostHdr mac []) := by
  have hsplit : kernelLine hostHdr mac "none".toList =
      kernelLine hostHdr mac [] ++ "non".toList ++ ['e'] := by
    delta kernelLine
    simp
  have hkept : trimEnd (kernelLine hostHdr mac "none".toList) =
      kernelLine hostHdr mac [] ++ "non".toList ++ ['e'] := by
    rw [hsplit, trimEnd, List.rdropWhile_concat_neg _ _ _ (by decide)]
  intro h
  have hle := (List.rdropWhile_prefix (· = ' ') (l := kernelLine hostHdr mac [])).length_le
  have hlen := congrArg List.length (hkept.symm.trans h)
  rw [trimEnd] at hlen
  simp only [List.length_append, List.length_singleton] at hlen
  omega

/-- The commands under a host's label are those of its boot script if it has a command line. -/
theorem sameCommands_iff {header : Option (List UInt8)} {config : Config}
    (h : ∀ host ∈ config.hosts, Unbroken host) {i : ℕ} {host : HostConfig}
    (hi : config.hosts[i]? = some host) {targetOf : Option String}
    (htarget : ∀ mac, targetOf = some mac → '\n' ∉ mac.toList) :
    SameCommands (under (hostLabel (i + 1)) (linesOf (menu header config).toList))
        (linesOf (bootScript (hostHeader header) host targetOf).toList) ↔
      host.cmdline ≠ none := by
  have hhost : Unbroken host := h host (List.mem_of_getElem? hi)
  obtain ⟨blanks, hblanks, hunder⟩ := under_host (hostHeader header) hi ["reboot".toList]
  have hcommands (word : Line) (hword : word ≠ []) :
      commands word (under (hostLabel (i + 1)) (linesOf (menu header config).toList)) =
        commands word (block (hostHeader header) host none (host.cmdline.getD "none").toList) := by
    rw [linesOf_menu h, Nat.add_comm i 1, hunder, commands_append, commands_blank hword hblanks,
      List.append_nil]
  have hshebang (word : Line) (hword : word ≠ "#!ipxe".toList) (lines : List Line) :
      commands word ("#!ipxe".toList :: lines) = commands word lines := by
    rw [commands, List.filter_cons_of_neg]
    · rfl
    · have hfirst : "#!ipxe".toList.takeWhile (· ≠ ' ') = "#!ipxe".toList := by decide
      simpa only [hfirst, decide_eq_true_eq] using hword.symm
  rw [SameCommands, linesOf_boot hhost (unbroken_hostHeader header) htarget]
  simp only [List.forall_mem_cons, List.not_mem_nil, IsEmpty.forall_iff, implies_true, and_true]
  rw [hcommands _ (by decide), hcommands _ (by decide), hshebang _ (by decide),
    hshebang _ (by decide), (commands_block _ _ _ _).1, (commands_block _ _ _ _).1,
    (commands_block _ _ _ _).2, (commands_block _ _ _ _).2]
  cases hcmdline : host.cmdline with
  | some cmdline => simp
  | none =>
    simp only [ne_eq, not_true_eq_false, iff_false, not_and]
    intro hkernel
    exact absurd (List.cons.inj hkernel).1 (trimEnd_kernelLine _ _)

/-- Each host has one item and one label in the menu, and its commands there are those of the
boot script a poll gets exactly if it has a command line: an absent one is printed. -/
theorem menu_boots_like_poll (header : Option (List UInt8)) (config : Config)
    (hmacs : ∀ host ∈ config.hosts, isValidMac host.mac = true)
    (htexts : ∀ host ∈ config.hosts, '\n' ∉ host.name.toList ∧
      ∀ cmdline, host.cmdline = some cmdline → '\n' ∉ cmdline.toList)
    (i : ℕ) (host : HostConfig) (hi : config.hosts[i]? = some host) :
    ((linesOf (menu header config).toList).filterMap itemTarget).count (hostLabel (i + 1)) = 1 ∧
    ((linesOf (menu header config).toList).filterMap labelName).count (hostLabel (i + 1)) = 1 ∧
    ∀ store mac, isValidMac mac = true → chosenHost config store mac = some host →
      ∃ script, decidePollOutcome (bootTemplate (hostHeader header)) config store mac =
          .boot script host.mac ∧
        (SameCommands (under (hostLabel (i + 1)) (linesOf (menu header config).toList))
            (linesOf script.toList) ↔ host.cmdline ≠ none) := by
  have hunbroken : ∀ host ∈ config.hosts, Unbroken host := fun host hhost ↦
    ⟨unbroken_mac (hmacs host hhost), htexts host hhost⟩
  have hlt := (List.getElem?_eq_some_iff.mp hi).1
  have hshell : "shell".toList ≠ hostLabel (i + 1) := (hostLabel_ne (by decide)).symm
  have hreboot : "reboot".toList ≠ hostLabel (i + 1) := (hostLabel_ne (by decide)).symm
  have hmenu : "menu".toList ≠ hostLabel (i + 1) := (hostLabel_ne (by decide)).symm
  refine ⟨?_, ?_, fun store mac hmac hchosen ↦ ?_⟩
  · have hlast : itemTarget "reboot".toList = none := by decide
    rw [linesOf_menu hunbroken, List.filterMap_append, items_menuLines, List.filterMap_cons, hlast,
      List.filterMap_nil, List.append_nil, List.count_append, count_hostLabels hlt,
      List.count_cons_of_ne hshell, List.count_cons_of_ne hreboot, List.count_nil]
  · have hlast : labelName "reboot".toList = none := by decide
    rw [linesOf_menu hunbroken, List.filterMap_append, labels_menuLines, List.filterMap_cons, hlast,
      List.filterMap_nil, List.append_nil, List.count_append, List.count_cons_of_ne hmenu,
      count_hostLabels hlt, List.count_cons_of_ne hshell, List.count_cons_of_ne hreboot,
      List.count_nil]
  · obtain ⟨targetOf, htarget, hboot⟩ := decidePollOutcome_chosen (hostHeader header) hmac hchosen
    exact ⟨_, hboot, sameCommands_iff hunbroken hi fun m hm ↦ htarget m hm ▸ unbroken_mac hmac⟩

def rack : HostConfig where
  mac := "aa:bb:cc:dd:ee:ff"
  name := "rack"
  imagePath := "/img"
  bootloader := none
  kernelPath := none
  initrdPath := none
  cmdline := some "quiet"

def rackConfig (cmdline : Option String) : Config where
  server :=
    { httpBind := "0.0.0.0:8080"
      tftpBind := "0.0.0.0:69"
      tftpRoot := .ofString "/srv"
      proxyDhcpBind := "0.0.0.0:4011"
      defaultBootloaderAmd64 := "ipxe.efi"
      defaultBootloaderArm64 := "arm64.efi" }
  hosts := [{ rack with cmdline := cmdline }]

def rackYaml : String :=
  Config.serverYaml "/srv" "ipxe.efi" "arm64.efi" ++ "hosts:\n" ++
    Config.hostYaml rack.mac rack.name rack.imagePath ++ "    cmdline: quiet\n"

theorem menu_boots_like_poll_quiet :
    ∃ script, decidePollOutcome (bootTemplate (hostHeader none)) (rackConfig (some "quiet")) {}
        "aa:bb:cc:dd:ee:ff" = .boot script "aa:bb:cc:dd:ee:ff" ∧
      SameCommands (under (hostLabel 1) (linesOf (menu none (rackConfig (some "quiet"))).toList))
        (linesOf script.toList) := by
  obtain ⟨-, -, hpoll⟩ := menu_boots_like_poll none (rackConfig (some "quiet")) (by decide)
    (by decide) 0 rack rfl
  obtain ⟨script, hboot, hsame⟩ := hpoll {} "aa:bb:cc:dd:ee:ff" (by decide) (by decide)
  exact ⟨script, hboot, hsame.mpr (by decide)⟩

/-- Without a command line the menu passes the kernel the argument `none`. -/
theorem menu_passes_none :
    ∃ script, decidePollOutcome (bootTemplate (hostHeader none)) (rackConfig none) {}
        "aa:bb:cc:dd:ee:ff" = .boot script "aa:bb:cc:dd:ee:ff" ∧
      ¬SameCommands (under (hostLabel 1) (linesOf (menu none (rackConfig none)).toList))
        (linesOf script.toList) := by
  have hunbroken : ∀ host ∈ (rackConfig none).hosts, Unbroken host := by
    simp only [Unbroken]
    decide
  have hmac : isValidMac "aa:bb:cc:dd:ee:ff" = true := by decide
  have hchosen : chosenHost (rackConfig none) {} "aa:bb:cc:dd:ee:ff" =
      some { rack with cmdline := none } := by decide
  obtain ⟨targetOf, htarget, hboot⟩ := decidePollOutcome_chosen (hostHeader none) hmac hchosen
  refine ⟨_, hboot, fun hsame ↦ ?_⟩
  exact (sameCommands_iff hunbroken (i := 0) rfl fun m hm ↦ htarget m hm ▸
    unbroken_mac hmac).mp hsame rfl

end BootyCall.Http.Menu
