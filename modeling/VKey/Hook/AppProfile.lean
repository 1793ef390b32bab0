import VKey.Hook.FocusMode
import VKey.Hook.FocusRouting
import VKey.Text.WideChar

/-!
# The classification of windows

The worker classifies the window that has the focus: what kind of program it belongs to, how text is
sent to it and which settings apply.  What it has found out about a window is kept in a cache of
profiles, and whether an executable hosts WebView2 in two caches by path, of which the one with the
misses expires.
-/

namespace VKey

namespace HookEngine

namespace FocusOwner

open FocusRouting (Hwnd chooseFocusTarget)
open FocusMode (PerAppMode decidePerAppMode)

/-! ## Windows -/

/-- A wide string literal. -/
def literal (text : String) : List WChar := text.toList.map L

/-- `_wcsicmp` finds no difference. -/
def equalsIgnoringCase (text other : List WChar) : Bool :=
  text.map asciiLower == other.map asciiLower

/-- `_wcsnicmp` finds no difference in the length of the prefix. -/
def startsIgnoringCase (start text : List WChar) : Bool :=
  (start.map asciiLower).isPrefixOf (text.map asciiLower)

/-- `wcsstr` finds the part. -/
def containsText (part text : List WChar) : Bool := decide (part <:+: text)

/-- What a window keeps while it exists.  The process is 0 and the paths are empty where the system
does not tell them. -/
structure Window where
  pid : Nat
  exePath : List WChar
  rootClassName : List WChar
  rootExePath : List WChar

/-- The name of the file without its directory, in lower case. -/
def exeNameOfPath (path : List WChar) : List WChar :=
  ((path.reverse.takeWhile (· != L '\\')).reverse).map asciiLower

def getExeNameForHwnd (window : Window) : List WChar :=
  if window.pid = 0 then [] else exeNameOfPath window.exePath

def getExeFullPathForHwnd (window : Window) : List WChar :=
  if window.pid = 0 then [] else window.exePath

/-- The names that the known Electron programs begin with. -/
def knownElectronNames : List String :=
  ["code", "cursor", "discord", "slack", "notion", "obsidian", "figma",
    "postman", "insomnia", "signal",
    "1password", "bitwarden", "gitkraken", "hyper", "spotify", "whatsapp",
      "telegram", "logseq", "linear",
    "lark", "legcord", "vesktop", "zalo"]

def isKnownElectronExe (filename : List WChar) : Bool :=
  knownElectronNames.any fun name => startsIgnoringCase (literal name) filename

/-- The kind of program that a window belongs to. -/
structure WindowKind where
  isBrowser : Bool := false
  isElectron : Bool := false
  isQtApp : Bool := false
  isConsole : Bool := false
  isVB6 : Bool := false
  deriving DecidableEq, Repr

/-- The classes of console windows. -/
def consoleClasses : List String :=
  ["CASCADIA_HOSTING_WINDOW_CLASS", "ConsoleWindowClass", "tty", "mintty", "PuTTY"]

def classifyWindow (window : Window) : WindowKind :=
  let className := window.rootClassName
  if consoleClasses.any fun name =>
    equalsIgnoringCase className (literal name) then { isConsole := true }
  else if equalsIgnoringCase className (literal "MozillaWindowClass") then { isBrowser := true }
  else if containsText (literal "Chrome_WidgetWin") className then
    let exeName := exeNameOfPath window.rootExePath
    if !exeName.isEmpty && isKnownElectronExe exeName then { isElectron := true } else
      { isBrowser := true }
  else if containsText (literal "Qt5") className || containsText (literal "Qt6") className ||
      containsText (literal "QWidget") className then { isQtApp := true }
  else if startsIgnoringCase (literal "ThunderRT6") className then { isVB6 := true }
  else {}

/-! ## Calls -/

structure TypingConfig where
  excludeApps : Bool
  tsfApps : Bool
  autoCaps : Bool

structure ConfigSnapshot where
  appSendMethodOverrides : List WChar → Option Int
  excludedAppSet : List WChar → Bool
  forcedVietnameseAppSet : List WChar → Bool
  tsfAppSet : List WChar → Bool
  appEncodingOverrides : List WChar → Option Int
  appInputMethodOverrides : List WChar → Option Int

structure ConfigContext where
  cfg : Option TypingConfig
  snap : Option ConfigSnapshot
  globalCodeTable : Int
  globalInputMethod : Int

/-- What a call finds: the foreground, the windows that are helpers, the processes in which WebView2
is found, the controls with the focus, and the ticks of the clock. -/
structure Moment where
  triggerHwnd : Hwnd
  foreground : Hwnd
  isHelper : Hwnd → Bool
  hostsWebView2 : Nat → Bool
  now : Nat
  cachedAt : Nat
  focusedChild : Hwnd → Hwnd
  isFocusedControlPassword : Hwnd → Hwnd → Bool
  isKnownEmptyFocusedDocument : Hwnd → Hwnd → Bool
  probeStartedAtMs : Nat

structure ClassifyCall where
  ctx : ConfigContext
  moment : Moment

/-- The window that a call classifies. -/
def Moment.activeHwnd (moment : Moment) : Hwnd :=
  chooseFocusTarget moment.triggerHwnd moment.foreground
    (moment.foreground != 0 && moment.isHelper moment.foreground)

/-! ## WebView2 -/

def kWebView2NegativeTtlMs : Nat := 30000

def kMaxWebView2NegativeCache : Nat := 128

def isWebView2NegativeCacheFresh (nowMs cachedMs ttlMs : Nat) : Bool :=
  (nowMs + 2 ^ 64 - cachedMs) % 2 ^ 64 < ttlMs

/-- The executables in which WebView2 has been found, and those in which it has not, with the
tick. -/
structure WebView2Caches where
  positive : List (List WChar)
  negative : List (List WChar × Nat)

def WebView2Caches.promote (caches : WebView2Caches) (exePath : List WChar) : WebView2Caches where
  positive := exePath :: caches.positive
  negative := caches.negative.filter (·.1 != exePath)

def WebView2Caches.miss (caches : WebView2Caches) (exePath : List WChar) (now : Nat) :
    WebView2Caches :=
  let kept := if caches.negative.length ≥ kMaxWebView2NegativeCache then [] else caches.negative
  { caches with negative := (exePath, now) :: kept.filter (·.1 != exePath) }

/-- Whether the process hosts WebView2, and what the caches remember. -/
def isWebView2App (moment : Moment) (pid : Nat) (exeFullPath : List WChar)
    (caches : WebView2Caches) :
    Bool × WebView2Caches :=
  if exeFullPath.isEmpty then (false, caches)
  else if caches.positive.contains exeFullPath then (true, caches)
  else if pid = 0 then (false, caches)
  else if (caches.negative.lookup exeFullPath).any fun cachedMs =>
      isWebView2NegativeCacheFresh moment.now cachedMs kWebView2NegativeTtlMs then (false, caches)
  else if moment.hostsWebView2 pid then (true, caches.promote exeFullPath)
  else (false, caches.miss exeFullPath moment.now)

/-! ## How text is sent -/

def kCompatSplitFirefoxMs : Nat := 6

def kCompatSplitRemoteMs : Nat := 25

def kCompatSplitWebViewMs : Nat := 6

/-- What a method of sending text stands for. -/
structure SendMethod where
  useClipboardInjector : Bool := false
  forcedSplitSleepMs : Nat := 0
  forceEmReplaceSel : Bool := false
  editMsg : Bool := false
  gameReinject : Bool := false
  forceNoBait : Bool := false

def SendMethod.ofOverride : Int → SendMethod
  | 1 => { useClipboardInjector := true }
  | 2 => { forcedSplitSleepMs := kCompatSplitFirefoxMs }
  | 3 => { forcedSplitSleepMs := kCompatSplitRemoteMs }
  | 4 => { forceEmReplaceSel := true, editMsg := true }
  | 5 => { gameReinject := true }
  | 6 => { forcedSplitSleepMs := kCompatSplitWebViewMs, forceNoBait := true }
  | _ => {}

/-- The method of sending text that is set for a program. -/
def sendMethodOverride (ctx : ConfigContext) (exeName : List WChar) : SendMethod :=
  if exeName.isEmpty then {}
  else
    match ctx.snap.bind fun snap => snap.appSendMethodOverrides exeName with
    | some method => SendMethod.ofOverride method
    | none => {}

/-- How text is sent before WebView2 is looked for, and whether it is. -/
structure DispatchShape where
  skipEmpty : Bool
  needBait : Bool
  clipboard : Bool
  editMsg : Bool := false
  asksWebView2 : Bool := false

def dispatchShape (kind : WindowKind) (exeName : List WChar) (forceNoBait : Bool) : DispatchShape :=
  let shape : DispatchShape :=
    { skipEmpty := kind.isElectron || kind.isConsole || forceNoBait
      needBait := if forceNoBait then false else kind.isBrowser
      clipboard := kind.isVB6 }
  if !shape.skipEmpty && !shape.needBait && !shape.clipboard && !exeName.isEmpty then
    if equalsIgnoringCase exeName (literal "zed.exe") then { shape with skipEmpty := true }
    else if equalsIgnoringCase exeName (literal "notepad.exe") then { shape with editMsg := true }
    else
      let isOutlook := containsText (literal "outlook") exeName
      let isExcel := containsText (literal "excel") exeName
      { shape with needBait := isOutlook, asksWebView2 := !isExcel && !isOutlook }
  else shape

/-! ## Classifications -/

structure FocusClassification where
  hwndOpaque : Hwnd := 0
  pid : Nat := 0
  exeName : List WChar := []
  isExcluded : Bool := false
  isForcedVietnamese : Bool := false
  isTsf : Bool := false
  kind : WindowKind := {}
  isWebView2 : Bool := false
  isKnownEmptyDocument : Bool := false
  emptyDocumentProbeStartedAtMs : Nat := 0
  isPasswordFieldFocused : Bool := false
  focusedChildHwndOpaque : Hwnd := 0
  localSkipEmpty : Bool := false
  localNeedBait : Bool := false
  localClipboard : Bool := false
  localEditMsg : Bool := false
  localForceEmReplaceSel : Bool := false
  localUseClipboardInjector : Bool := false
  localElectronApp : Bool := false
  localForcedSplitSleepMs : Nat := 0
  localGameReinject : Bool := false
  targetMethod : Int := -1
  targetCodeTable : Int := -1
  skipAppTracking : Bool := false
  deriving DecidableEq, Repr

/-- The lock and the library that own the program. -/
def resolveOwner (ctx : ConfigContext) (cls : FocusClassification) : FocusClassification :=
  match ctx.cfg, ctx.snap with
  | some cfg, some snap =>
      if cls.exeName.isEmpty then cls
      else
        let mode :=
          if cfg.excludeApps then
            decidePerAppMode (snap.excludedAppSet cls.exeName)
              (snap.forcedVietnameseAppSet cls.exeName)
          else .none
        let isExcluded := decide (mode = .forceEnglish)
        { cls with
          isExcluded := isExcluded
          isForcedVietnamese := decide (mode = .forceVietnamese)
          isTsf := !isExcluded && cfg.tsfApps && snap.tsfAppSet cls.exeName }
  | _, _ => cls

/-- The encoding and the input method of the program. -/
def resolveTargets (ctx : ConfigContext) (cls : FocusClassification) : FocusClassification :=
  let global :=
    { cls with targetCodeTable := ctx.globalCodeTable, targetMethod := ctx.globalInputMethod }
  match ctx.cfg, ctx.snap with
  | some _, some snap =>
      if !cls.exeName.isEmpty && !cls.isExcluded && !cls.isTsf && !cls.skipAppTracking then
        { global with
          targetCodeTable := (snap.appEncodingOverrides cls.exeName).getD ctx.globalCodeTable
          targetMethod := (snap.appInputMethodOverrides cls.exeName).getD ctx.globalInputMethod }
      else global
  | _, _ => global

/-- The control with the focus, for capital letters at the start of a document. -/
def probeDocument (ctx : ConfigContext) (moment : Moment) (activeHwnd : Hwnd)
    (cls : FocusClassification) :
    FocusClassification :=
  if !cls.skipAppTracking && !cls.isExcluded && !cls.isTsf && ctx.cfg.any (·.autoCaps) then
    let focusedChild := moment.focusedChild activeHwnd
    let isPassword := moment.isFocusedControlPassword activeHwnd focusedChild
    let isKnownEmpty := !isPassword && moment.isKnownEmptyFocusedDocument activeHwnd focusedChild
    { cls with
      focusedChildHwndOpaque := focusedChild
      isPasswordFieldFocused := isPassword
      isKnownEmptyDocument := isKnownEmpty
      emptyDocumentProbeStartedAtMs := if isKnownEmpty then moment.probeStartedAtMs else 0 }
  else cls

/-- The classification of a window, from its kind, the name of its program and whether it hosts
WebView2. -/
def describe (windows : Hwnd → Window) (ctx : ConfigContext) (moment : Moment) (kind : WindowKind)
    (exeName : List WChar) (isWebView2 : Bool) : FocusClassification :=
  let activeHwnd := moment.activeHwnd
  let method := sendMethodOverride ctx exeName
  let shape := dispatchShape kind exeName method.forceNoBait
  let promoted := shape.asksWebView2 && isWebView2
  let cls : FocusClassification :=
    { hwndOpaque := activeHwnd
      pid := (windows activeHwnd).pid
      exeName :=
        if exeName.isEmpty && activeHwnd != moment.foreground && moment.foreground != 0 then
          getExeNameForHwnd (windows moment.foreground)
        else exeName
      kind := kind
      isWebView2 := isWebView2
      localSkipEmpty := !promoted && shape.skipEmpty
      localNeedBait := promoted || shape.needBait
      localClipboard := shape.clipboard
      localEditMsg := method.editMsg || shape.editMsg
      localForceEmReplaceSel := method.forceEmReplaceSel
      localUseClipboardInjector := method.useClipboardInjector
      localElectronApp := (kind.isElectron || isWebView2 || method.forceNoBait) && !kind.isConsole
      localForcedSplitSleepMs := method.forcedSplitSleepMs
      localGameReinject := method.gameReinject
      skipAppTracking := moment.isHelper activeHwnd }
  cls |> resolveOwner ctx |> resolveTargets ctx |> probeDocument ctx moment activeHwnd

/-! ## Profiles -/

structure AppProfile where
  pid : Nat
  exeName : List WChar
  kind : WindowKind
  isWebView2 : Bool
  cachedAt : Nat

structure State where
  appProfileCache : List (Hwnd × AppProfile)
  webView2 : WebView2Caches

def kMaxAppProfileCache : Nat := 64

/-- The profile of a window, which is dropped if the handle belongs to another process now. -/
def lookupAppProfile (windows : Hwnd → Window) (hwnd : Hwnd) (s : State) :
    Option AppProfile × State :=
  match s.appProfileCache.lookup hwnd with
  | none => (none, s)
  | some profile =>
      if (windows hwnd).pid = 0 ∨ (windows hwnd).pid ≠ profile.pid then
        (none, { s with appProfileCache := s.appProfileCache.filter (·.1 != hwnd) })
      else (some profile, s)

/-- The entry with the smallest tick, the first of them. -/
def oldestEntry : List (Hwnd × AppProfile) → Option Hwnd
  | [] => none
  | entry :: entries =>
      some (entries.foldl (fun oldest candidate =>
        if candidate.2.cachedAt < oldest.2.cachedAt then candidate else oldest) entry).1

def storeAppProfile (hwnd : Hwnd) (profile : AppProfile) (s : State) : State :=
  let kept :=
    if s.appProfileCache.length ≥ kMaxAppProfileCache then
      s.appProfileCache.filter fun entry => some entry.1 != oldestEntry s.appProfileCache
    else s.appProfileCache
  { s with appProfileCache := (hwnd, profile) :: kept.filter (·.1 != hwnd) }

/-- Whether WebView2 is looked for in a window. -/
def asksWebView2 (ctx : ConfigContext) (window : Window) : Bool :=
  let exeName := getExeNameForHwnd window
  (dispatchShape (classifyWindow window)
    exeName (sendMethodOverride ctx exeName).forceNoBait).asksWebView2

/-- Whether a window without a profile is found to host WebView2. -/
def findWebView2 (ctx : ConfigContext) (moment : Moment) (window : Window)
    (caches : WebView2Caches) :
    Bool × WebView2Caches :=
  if asksWebView2 ctx window then
    isWebView2App moment window.pid (getExeFullPathForHwnd window) caches
  else (false, caches)

/-- The classification of the window that has the focus.  It is empty where there is none. -/
def classify (windows : Hwnd → Window) (call : ClassifyCall) (s : State) :
    FocusClassification × State :=
  let activeHwnd := call.moment.activeHwnd
  if activeHwnd = 0 then ({}, s)
  else
    let found := lookupAppProfile windows activeHwnd s
    match found.1 with
    | some profile =>
        (describe windows call.ctx call.moment profile.kind profile.exeName
          profile.isWebView2, found.2)
    | none =>
        let window := windows activeHwnd
        let kind := classifyWindow window
        let exeName := getExeNameForHwnd window
        let webView2 := findWebView2 call.ctx call.moment window found.2.webView2
        let asked := { found.2 with webView2 := webView2.2 }
        (describe windows call.ctx call.moment kind exeName webView2.1,
          if window.pid = 0 then asked
          else
            storeAppProfile activeHwnd
              { pid := window.pid
                exeName := exeName
                kind := kind
                isWebView2 := webView2.1
                cachedAt := call.moment.cachedAt } asked)

end FocusOwner

end HookEngine

end VKey
