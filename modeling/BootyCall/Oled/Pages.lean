import Mathlib.Data.List.Infix
import BootyCall.Oled.Drawing

namespace BootyCall.Oled.Pages

open Drawing

def iconHost : List UInt8 :=
  [0, 0, 0, 0, 0, 0, 0, 0, 0, 0, 0, 0, 0, 0, 0, 0, 0, 0, 0, 0, 0, 0, 0, 0, 0, 0, 0, 0, 0, 0, 0, 0,
    0, 32, 180, 180, 180, 180, 180, 170, 170, 180, 180, 180, 180, 180, 32, 0, 0, 76, 154, 32, 32,
    32, 32, 32, 32, 32, 32, 32, 32, 154, 72, 0, 0, 76, 134, 0, 0, 0, 0, 0, 0, 0, 0, 0, 0, 140, 72,
    0, 0, 76, 134, 0, 0, 0, 0, 0, 0, 0, 0, 0, 0, 140, 72, 0, 0, 76, 134, 0, 0, 0, 0, 0, 0, 0, 0,
    0, 0, 140, 72, 0, 0, 76, 134, 0, 0, 0, 0, 0, 0, 0, 0, 0, 0, 140, 72, 0, 0, 76, 134, 0, 0, 0,
    0, 0, 0, 0, 0, 0, 0, 140, 72, 0, 0, 76, 140, 12, 12, 12, 12, 12, 12, 12, 12, 12, 12, 143, 72,
    0, 0, 72, 200, 200, 200, 200, 200, 200, 200, 200, 200, 200, 200, 200, 72, 0, 0, 154, 115, 104,
    104, 104, 104, 104, 104, 104, 104, 104, 104, 115, 154, 0, 170, 242, 188, 188, 188, 188, 154,
    134, 134, 154, 188, 188, 188, 188, 242, 170, 134, 134, 134, 143, 143, 143, 134, 115, 115, 134,
    143, 143, 143, 143, 143, 134, 0, 0, 0, 0, 0, 0, 0, 0, 0, 0, 0, 0, 0, 0, 0, 0, 0, 0, 0, 0, 0,
    0, 0, 0, 0, 0, 0, 0, 0, 0, 0, 0]

def iconNetwork : List UInt8 :=
  [0, 0, 0, 0, 0, 0, 0, 0, 0, 0, 0, 0, 0, 0, 0, 0, 211, 196, 196, 196, 196, 196, 196, 211, 0, 0,
    0, 0, 0, 0, 0, 0, 194, 97, 97, 97, 97, 97, 97, 196, 0, 0, 0, 0, 0, 0, 0, 0, 194, 97, 97, 97,
    97, 97, 97, 196, 0, 189, 158, 156, 189, 0, 0, 0, 194, 97, 97, 97, 97, 97, 97, 196, 0, 0, 0, 1,
    158, 0, 0, 0, 194, 97, 97, 97, 97, 97, 97, 196, 0, 0, 0, 1, 158, 0, 0, 0, 196, 196, 196, 211,
    211, 196, 196, 196, 0, 0, 0, 1, 189, 0, 0, 0, 0, 0, 158, 254, 254, 97, 0, 0, 0, 4, 4, 4, 4, 4,
    4, 4, 0, 0, 0, 0, 0, 0, 0, 0, 226, 194, 194, 194, 194, 194, 194, 226, 0, 0, 0, 189, 0, 0, 0,
    0, 194, 97, 97, 97, 97, 97, 97, 194, 0, 0, 0, 158, 0, 0, 0, 0, 194, 97, 97, 97, 97, 97, 97,
    194, 0, 0, 0, 156, 1, 1, 1, 0, 194, 97, 97, 97, 97, 97, 97, 194, 0, 0, 0, 189, 158, 158, 189,
    0, 200, 119, 119, 119, 119, 119, 119, 200, 0, 0, 0, 0, 0, 0, 0, 0, 175, 178, 178, 211, 211,
    178, 178, 175, 0, 0, 0, 0, 0, 0, 0, 0, 0, 0, 158, 226, 226, 158, 0, 0, 0, 0, 0, 0, 0, 0, 0, 0,
    0, 0, 0, 0, 0, 0, 0, 0]

def iconClock : List UInt8 :=
  [0, 0, 0, 0, 41, 120, 162, 168, 168, 162, 129, 41, 0, 0, 0, 0, 0, 0, 0, 107, 160, 107, 41, 20,
    20, 41, 97, 160, 120, 0, 0, 0, 0, 10, 129, 139, 20, 0, 0, 0, 0, 0, 0, 20, 129, 139, 10, 0, 0,
    107, 139, 0, 0, 0, 0, 88, 97, 0, 0, 0, 0, 129, 120, 0, 41, 160, 20, 0, 0, 0, 0, 97, 107, 0, 0,
    0, 0, 10, 160, 41, 120, 97, 0, 0, 0, 0, 0, 97, 107, 0, 0, 0, 0, 0, 88, 129, 162, 41, 0, 0, 0,
    0, 0, 97, 107, 0, 0, 0, 0, 0, 41, 160, 168, 20, 0, 0, 0, 0, 0, 97, 107, 0, 0, 0, 0, 0, 10,
    162, 168, 20, 0, 0, 0, 0, 0, 66, 168, 41, 0, 0, 0, 0, 10, 162, 162, 41, 0, 0, 0, 0, 0, 0, 66,
    168, 66, 0, 0, 0, 41, 160, 129, 97, 0, 0, 0, 0, 0, 0, 0, 54, 168, 54, 0, 0, 88, 129, 41, 160,
    10, 0, 0, 0, 0, 0, 0, 0, 20, 20, 0, 10, 153, 54, 0, 107, 129, 0, 0, 0, 0, 0, 0, 0, 0, 0, 0,
    120, 120, 0, 0, 10, 139, 129, 10, 0, 0, 0, 0, 0, 0, 10, 120, 153, 10, 0, 0, 0, 10, 120, 160,
    88, 41, 20, 10, 41, 88, 160, 120, 10, 0, 0, 0, 0, 0, 0, 54, 129, 160, 162, 162, 160, 129, 54,
    0, 0, 0, 0]

def formatUptime (secs : ℕ) : String :=
  toString (secs / 86400) ++ "d " ++ toString (secs % 86400 / 3600) ++ "h " ++
    toString (secs % 3600 / 60) ++ "m"

structure Process where
  name : String
  cmd : List String

def isInteractiveSshd (name : String) (cmd : List String) : Bool :=
  name == "sshd" && cmd.any fun c ↦ decide ("@pts".toList <:+: c.toList)

def activeSshSessions (processes : List Process) : ℕ :=
  processes.countP fun p ↦ isInteractiveSshd p.name p.cmd

/-- What the system tells after the refresh of the page displayed. -/
structure SystemMetrics where
  getHostname : String
  getIpAddress : String
  uptime : ℕ
  getCpuTemp : String
  getCpuUsage : String
  getRamUsage : String
  getDiskUsage : String
  getKernel : String

def SystemMetrics.getUptime (m : SystemMetrics) : String := formatUptime m.uptime

structure PageSpec where
  label : String
  icon : List UInt8
  iconDy : ℕ
  value : SystemMetrics → String

def pages : List PageSpec :=
  [⟨"HOSTNAME", iconHost, 0, SystemMetrics.getHostname⟩,
    ⟨"IP ADDRESS", iconNetwork, 0, SystemMetrics.getIpAddress⟩,
    ⟨"UPTIME", iconClock, 1, SystemMetrics.getUptime⟩,
    ⟨"CPU TEMP", iconHost, 0, SystemMetrics.getCpuTemp⟩,
    ⟨"CPU USAGE", iconHost, 0, SystemMetrics.getCpuUsage⟩,
    ⟨"RAM USAGE", iconHost, 0, SystemMetrics.getRamUsage⟩,
    ⟨"DISK USAGE", iconHost, 0, SystemMetrics.getDiskUsage⟩,
    ⟨"KERNEL", iconHost, 0, SystemMetrics.getKernel⟩]

/-- No result where there is no such page, or where its drawing leaves a word. -/
def drawPage (font : Font) (fb : Framebuffer) (pageIndex : ℕ) (m : SystemMetrics) :
    Option Framebuffer := do
  let spec ← pages[pageIndex]?
  drawMetricsPage font fb spec.label (spec.value m) (some spec.icon) spec.iconDy

def pageAt (font : Font) (pageIndex : ℕ) (m : SystemMetrics) (k : Place) : UInt8 :=
  pages[pageIndex]?.elim 0 fun spec : PageSpec ↦
    page font spec.label (spec.value m) spec.icon spec.iconDy k

theorem drawPage_spec (font : Font) {fb : Framebuffer} (hfb : ∀ k, pixel fb k = 0)
    {pageIndex : ℕ} (h : pageIndex < pages.length) (m : SystemMetrics) :
    ∃ fb', drawPage font fb pageIndex m = some fb' ∧
      ∀ k, pixel fb' k = pageAt font pageIndex m k := by
  obtain ⟨spec, hspec⟩ : ∃ spec, pages[pageIndex]? = some spec :=
    ⟨_, List.getElem?_eq_getElem h⟩
  obtain ⟨fb', hdraw, hpixels⟩ := drawMetricsPage_spec font fb spec.label (spec.value m)
    spec.icon spec.iconDy hfb
  refine ⟨fb', ?_, fun k ↦ ?_⟩
  · simp only [drawPage, hspec, Option.bind_eq_bind, Option.bind_some, hdraw]
  · simp only [pageAt, hspec, Option.elim_some, hpixels]

end BootyCall.Oled.Pages
