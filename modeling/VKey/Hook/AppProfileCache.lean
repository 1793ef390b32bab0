import VKey.Hook.AppProfile
import VKey.Support.ListEdits
import VKey.Support.Run

/-!
# When the cache of profiles can be seen

A profile keeps the kind of a window and its program, which never change, and a verdict on WebView2,
which does: it has been found with the settings and the caches of the first visit and has no expiry.
So a visit that is served from the cache is told from one that is not exactly by that verdict.
-/

namespace VKey

namespace HookEngine

namespace FocusOwner

open FocusRouting (Hwnd)

/-- The state without the profiles. -/
def State.withoutProfiles (s : State) : State := { s with appProfileCache := [] }

/-- A state whose cache of profiles is empty. -/
def State.fresh (caches : WebView2Caches) : State := { appProfileCache := [], webView2 := caches }

/-- The state after a call. -/
def afterClassify (windows : Hwnd → Window) (s : State) (call : ClassifyCall) : State :=
  (classify windows call s).2

/-- The classification is the one without profiles. -/
def Transparent (windows : Hwnd → Window) (s : State) (call : ClassifyCall) : Prop :=
  (classify windows call s).1 = (classify windows call s.withoutProfiles).1

/-- The send method of the program forbids the bait. -/
def forbidsBait (ctx : ConfigContext) (window : Window) : Bool :=
  (sendMethodOverride ctx (getExeNameForHwnd window)).forceNoBait

/-- The verdict of the first visit stands: a window that has been found to host WebView2 is not told
to do without the bait, and one that has not is not found to host it now. -/
def VerdictStands (windows : Hwnd → Window) (s : State) (call : ClassifyCall) : Prop :=
  let window := windows call.moment.activeHwnd
  ∀ profile, s.appProfileCache.lookup call.moment.activeHwnd = some profile →
    (profile.isWebView2 = true → forbidsBait call.ctx window = false) ∧
      (profile.isWebView2 = false →
        asksWebView2 call.ctx window = true →
          (isWebView2App call.moment window.pid (getExeFullPathForHwnd window) s.webView2).1 =
            false)

/-! ## What is asked -/

section Verdict

variable {ctx : ConfigContext} {moment : Moment} {window : Window} {caches : WebView2Caches}

/-- WebView2 could be asked for in the window, if the settings allow it. -/
def undecided (window : Window) : Bool :=
  (dispatchShape (classifyWindow window) (getExeNameForHwnd window) false).asksWebView2

theorem dispatchShape_true (kind : WindowKind) (exeName : List WChar) :
    (dispatchShape kind exeName true).asksWebView2 = false := by
  simp [dispatchShape]

theorem asksWebView2_eq (ctx : ConfigContext) (window : Window) :
    asksWebView2 ctx window = (undecided window && !forbidsBait ctx window) := by
  rw [asksWebView2, undecided, forbidsBait]
  cases (sendMethodOverride ctx (getExeNameForHwnd window)).forceNoBait with
  | true => simp [dispatchShape_true]
  | false => simp

theorem mem_positive_isWebView2App {pid : Nat} {path : List WChar} {exePath : List WChar}
    (h : path ∈ caches.positive) : path ∈ (isWebView2App moment pid exePath caches).2.positive := by
  rw [isWebView2App]
  split_ifs
  · exact h
  · exact h
  · exact h
  · exact h
  · exact List.mem_cons_of_mem _ h
  · exact h

theorem mem_positive_of_found {pid : Nat} {exePath : List WChar}
    (h : (isWebView2App moment pid exePath caches).1 = true) :
    exePath ≠ [] ∧ exePath ∈ (isWebView2App moment pid exePath caches).2.positive := by
  rw [isWebView2App] at h ⊢
  by_cases hempty : exePath.isEmpty = true
  · rw [if_pos hempty] at h
    cases h
  · refine ⟨by simpa using hempty, ?_⟩
    rw [if_neg hempty] at h ⊢
    split_ifs at h ⊢ with hpositive
    · exact List.contains_iff_mem.mp hpositive
    · exact List.mem_cons_self

theorem found_of_mem_positive {pid : Nat} {exePath : List WChar} (hpath : exePath ≠ [])
    (h : exePath ∈ caches.positive) : (isWebView2App moment pid exePath caches).1 = true := by
  rw [isWebView2App, if_neg (by simpa using hpath), if_pos (List.contains_iff_mem.mpr h)]

theorem mem_positive_findWebView2 {path : List WChar} (h : path ∈ caches.positive) :
    path ∈ (findWebView2 ctx moment window caches).2.positive := by
  rw [findWebView2]
  split_ifs
  · exact mem_positive_isWebView2App h
  · exact h

end Verdict

/-! ## The profiles that are kept -/

/-- A profile tells what it has been made from: the kind of the window and its program, and a window
that has been found to host WebView2 has been found by an executable that is still known. -/
structure Records (windows : Hwnd → Window) (caches : WebView2Caches) (hwnd : Hwnd)
    (profile : AppProfile) :
    Prop where
  hwnd_ne_zero : hwnd ≠ 0
  pid : profile.pid = (windows hwnd).pid
  pid_ne_zero : (windows hwnd).pid ≠ 0
  kind : profile.kind = classifyWindow (windows hwnd)
  exeName : profile.exeName = getExeNameForHwnd (windows hwnd)
  undecided : profile.isWebView2 = true → undecided (windows hwnd) = true
  known : profile.isWebView2 = true →
    getExeFullPathForHwnd (windows hwnd) ≠ [] ∧
      getExeFullPathForHwnd (windows hwnd) ∈ caches.positive

/-- Every profile tells what it has been made from. -/
def WellRecorded (windows : Hwnd → Window) (s : State) : Prop :=
  ∀ hwnd profile, (hwnd, profile) ∈ s.appProfileCache → Records windows s.webView2 hwnd profile

section Profiles

variable {windows : Hwnd → Window} {s : State} {call : ClassifyCall}

theorem Records.mono {caches caches' : WebView2Caches} {hwnd : Hwnd} {profile : AppProfile}
    (h : Records windows caches hwnd profile)
    (hsub : ∀ path ∈ caches.positive, path ∈ caches'.positive) :
    Records windows caches' hwnd profile :=
  { h with known := fun hfound => ⟨(h.known hfound).1, hsub _ (h.known hfound).2⟩ }

theorem mem_of_lookup {entries : List (Hwnd × AppProfile)} {hwnd : Hwnd} {profile : AppProfile}
    (h : entries.lookup hwnd = some profile) : (hwnd, profile) ∈ entries := by
  obtain ⟨front, back, rfl, -⟩ := List.lookup_eq_some_iff.mp h
  exact List.mem_append_right _ List.mem_cons_self

theorem lookupAppProfile_of_records {hwnd : Hwnd} (h : WellRecorded windows s) :
    lookupAppProfile windows hwnd s = (s.appProfileCache.lookup hwnd, s) := by
  rw [lookupAppProfile]
  cases hlookup : s.appProfileCache.lookup hwnd with
  | none => rfl
  | some profile =>
      have hrecords := h hwnd profile (mem_of_lookup hlookup)
      have hvalid : ¬((windows hwnd).pid = 0 ∨ (windows hwnd).pid ≠ profile.pid) := by
        rw [hrecords.pid]
        simpa using hrecords.pid_ne_zero
      simp only [if_neg hvalid]

theorem mem_storeAppProfile {hwnd other : Hwnd} {profile stored : AppProfile}
    (h : (other, profile) ∈ (storeAppProfile hwnd stored s).appProfileCache) :
    (other = hwnd ∧ profile = stored) ∨ (other, profile) ∈ s.appProfileCache := by
  simp only [storeAppProfile, List.mem_cons, Prod.mk.injEq, List.mem_filter] at h
  rcases h with hstored | ⟨hkept, -⟩
  · exact Or.inl hstored
  · split_ifs at hkept
    · exact Or.inr (List.mem_filter.mp hkept).1
    · exact Or.inr hkept

/-- The profile of a window that is visited for the first time. -/
theorem records_of_visit (hactive : call.moment.activeHwnd ≠ 0)
    (hpid : (windows call.moment.activeHwnd).pid ≠ 0) (caches : WebView2Caches) :
    let window := windows call.moment.activeHwnd
    let webView2 := findWebView2 call.ctx call.moment window caches
    Records windows webView2.2 call.moment.activeHwnd
      { pid := window.pid
        exeName := getExeNameForHwnd window
        kind := classifyWindow window
        isWebView2 := webView2.1
        cachedAt := call.moment.cachedAt } := by
  intro window webView2
  by_cases hasks : asksWebView2 call.ctx window = true
  · have hfind :
      webView2 = isWebView2App call.moment window.pid (getExeFullPathForHwnd window) caches :=
      if_pos hasks
    rw [asksWebView2_eq, Bool.and_eq_true] at hasks
    refine ⟨hactive, rfl, hpid, rfl, rfl, fun _ => hasks.1, fun hfound => ?_⟩
    rw [hfind] at hfound ⊢
    exact mem_positive_of_found hfound
  · have hfind : webView2 = (false, caches) := if_neg hasks
    rw [hfind]
    exact ⟨hactive, rfl, hpid, rfl, rfl, nofun, nofun⟩

/-- A call keeps the profiles right. -/
theorem wellRecorded_afterClassify (h : WellRecorded windows s) :
    WellRecorded windows (afterClassify windows s call) := by
  rw [afterClassify, classify]
  split_ifs with hactive
  · exact h
  · rw [lookupAppProfile_of_records h]
    cases s.appProfileCache.lookup call.moment.activeHwnd with
    | some profile => exact h
    | none =>
        have hkept : WellRecorded windows { s with
            webView2 :=
              (findWebView2 call.ctx call.moment (windows call.moment.activeHwnd) s.webView2).2 } :=
          fun hwnd profile hmem => (h hwnd profile hmem).mono fun _ => mem_positive_findWebView2
        dsimp only
        split_ifs with hpid
        · exact hkept
        · intro hwnd profile hmem
          rcases mem_storeAppProfile hmem with ⟨rfl, rfl⟩ | hold
          · exact records_of_visit hactive hpid s.webView2
          · exact hkept hwnd profile hold

end Profiles

/-! ## Visits -/

section Visits

variable {windows : Hwnd → Window} {s : State} {call : ClassifyCall}

theorem isWebView2_resolveOwner (ctx : ConfigContext) (cls : FocusClassification) :
    (resolveOwner ctx cls).isWebView2 = cls.isWebView2 := by
  rw [resolveOwner]
  split
  · dsimp only
    split
    · rfl
    · rfl
  · rfl

theorem isWebView2_resolveTargets (ctx : ConfigContext) (cls : FocusClassification) :
    (resolveTargets ctx cls).isWebView2 = cls.isWebView2 := by
  rw [resolveTargets]
  split
  · split_ifs
    · rfl
    · rfl
  · rfl

theorem isWebView2_probeDocument (ctx : ConfigContext) (moment : Moment) (hwnd : Hwnd)
    (cls : FocusClassification) :
    (probeDocument ctx moment hwnd cls).isWebView2 = cls.isWebView2 := by
  rw [probeDocument]
  split_ifs
  · rfl
  · rfl

theorem isWebView2_describe (windows : Hwnd → Window) (ctx : ConfigContext) (moment : Moment)
    (kind : WindowKind) (exeName : List WChar) (isWebView2 : Bool) :
    (describe windows ctx moment kind exeName isWebView2).isWebView2 = isWebView2 := by
  rw [describe, isWebView2_probeDocument, isWebView2_resolveTargets, isWebView2_resolveOwner]

theorem classify_of_lookup (h : WellRecorded windows s) (hactive : call.moment.activeHwnd ≠ 0)
    {profile : AppProfile}
    (hlookup : s.appProfileCache.lookup call.moment.activeHwnd = some profile) :
    (classify windows call s).1 =
      describe windows call.ctx call.moment (classifyWindow (windows call.moment.activeHwnd))
        (getExeNameForHwnd (windows call.moment.activeHwnd)) profile.isWebView2 := by
  have hrecords := h _ _ (mem_of_lookup hlookup)
  simp only [classify, if_neg hactive, lookupAppProfile_of_records h, hlookup, hrecords.kind,
    hrecords.exeName]

theorem classify_of_lookup_none (h : WellRecorded windows s) (hactive : call.moment.activeHwnd ≠ 0)
    (hlookup : s.appProfileCache.lookup call.moment.activeHwnd = none) :
    (classify windows call s).1 =
      describe windows call.ctx call.moment (classifyWindow (windows call.moment.activeHwnd))
        (getExeNameForHwnd (windows call.moment.activeHwnd))
        (findWebView2 call.ctx call.moment (windows call.moment.activeHwnd) s.webView2).1 := by
  simp only [classify, if_neg hactive, lookupAppProfile_of_records h, hlookup]

theorem classify_withoutProfiles (hactive : call.moment.activeHwnd ≠ 0) :
    (classify windows call s.withoutProfiles).1 =
      describe windows call.ctx call.moment (classifyWindow (windows call.moment.activeHwnd))
        (getExeNameForHwnd (windows call.moment.activeHwnd))
        (findWebView2 call.ctx call.moment (windows call.moment.activeHwnd) s.webView2).1 :=
  classify_of_lookup_none (fun _ _ hmem => absurd hmem List.not_mem_nil) hactive rfl

/-- The verdict of a profile is the one of now exactly if it stands. -/
theorem verdict_iff {window : Window} {profile : AppProfile} (ctx : ConfigContext) (moment : Moment)
    {caches : WebView2Caches} (hundecided : profile.isWebView2 = true → undecided window = true)
    (hknown : profile.isWebView2 = true →
      getExeFullPathForHwnd window ≠ [] ∧ getExeFullPathForHwnd window ∈ caches.positive) :
    profile.isWebView2 = (findWebView2 ctx moment window caches).1 ↔
      (profile.isWebView2 = true → forbidsBait ctx window = false) ∧
        (profile.isWebView2 = false → asksWebView2 ctx window = true →
          (isWebView2App moment window.pid (getExeFullPathForHwnd window) caches).1 = false) := by
  rw [findWebView2]
  cases hprofile : profile.isWebView2 with
  | true =>
      obtain ⟨hpath, hmem⟩ := hknown hprofile
      rw [asksWebView2_eq, hundecided hprofile]
      cases forbidsBait ctx window with
      | true => simp
      | false => simp [found_of_mem_positive hpath hmem]
  | false =>
      cases asksWebView2 ctx window with
      | true =>
          rw [if_pos rfl]
          exact ⟨fun h => ⟨nofun, fun _ _ => h.symm⟩, fun h => (h.2 rfl rfl).symm⟩
      | false => simp

/-- A visit is told from one without profiles exactly by the verdict. -/
theorem transparent_iff (h : WellRecorded windows s) :
    Transparent windows s call ↔ VerdictStands windows s call := by
  rw [Transparent, VerdictStands]
  by_cases hactive : call.moment.activeHwnd = 0
  · have hempty : ∀ state, (classify windows call state).1 = {} := by
      intro state
      simp only [classify, if_pos hactive]
    refine iff_of_true ((hempty s).trans (hempty _).symm) fun profile hlookup => ?_
    exact absurd hactive (h _ _ (mem_of_lookup hlookup)).hwnd_ne_zero
  · rw [classify_withoutProfiles hactive]
    cases hlookup : s.appProfileCache.lookup call.moment.activeHwnd with
    | none =>
        rw [classify_of_lookup_none h hactive hlookup]
        exact iff_of_true rfl nofun
    | some profile =>
        have hrecords := h _ _ (mem_of_lookup hlookup)
        have hverdict := verdict_iff call.ctx call.moment hrecords.undecided hrecords.known
        rw [classify_of_lookup h hactive hlookup]
        constructor
        · rintro hsame _ ⟨⟩
          have hsame' := congrArg FocusClassification.isWebView2 hsame
          rw [isWebView2_describe, isWebView2_describe] at hsame'
          exact hverdict.mp hsame'
        · intro hstands
          rw [hverdict.mpr (hstands profile rfl)]

end Visits

/-- From an empty cache of profiles every visit is told from one without profiles by nothing,
exactly if at each visit that is served from the cache the verdict of the first visit stands. -/
theorem transparent_run_iff (windows : Hwnd → Window) (caches : WebView2Caches)
    (calls : List ClassifyCall) :
    EachStep (afterClassify windows) (Transparent windows) (.fresh caches) calls ↔
      EachStep (afterClassify windows) (VerdictStands windows) (.fresh caches) calls :=
  eachStep_iff (WellRecorded windows) (fun _ _ hrecorded => transparent_iff hrecorded)
    (fun _ _ hrecorded _ => wellRecorded_afterClassify hrecorded)
    (fun _ _ hmem => absurd hmem List.not_mem_nil) calls

/-! ## A process that starts to host WebView2 -/

/-- A window of `app.exe`. -/
def appWindows (_ : Hwnd) : Window where
  pid := 7
  exePath := literal "C:\\app.exe"
  rootClassName := literal "Application"
  rootExePath := literal "C:\\app.exe"

/-- The window gets the focus. -/
def visit (hosts : Bool) (now : Nat) : ClassifyCall where
  ctx := { cfg := none, snap := none, globalCodeTable := 0, globalInputMethod := 0 }
  moment := {
    triggerHwnd := 1
    foreground := 1
    isHelper := fun _ => false
    hostsWebView2 := fun _ => hosts
    now := now
    cachedAt := now
    focusedChild := fun _ => 0
    isFocusedControlPassword := fun _ _ => false
    isKnownEmptyFocusedDocument := fun _ _ => false
    probeStartedAtMs := now }

/-- The window is visited before its process hosts WebView2, and again an hour later.  Without the
profile the host is found, and with it never. -/
theorem not_transparent_run :
    ¬ EachStep (afterClassify appWindows) (Transparent appWindows)
    (.fresh { positive := [], negative := [] })
      [visit false 0, visit true 3600000] := by
  rintro ⟨-, hsecond, -⟩
  have hverdict := congrArg FocusClassification.isWebView2 hsecond
  exact absurd hverdict (by decide)

end FocusOwner

end HookEngine

end VKey
