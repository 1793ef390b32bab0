import Mathlib.Algebra.Ring.Nat
import VKey.Output.Injectors

/-!
# No modifier is left released

A replacement is a key passed on and a bracketed batch: the held modifiers are released, something
is typed, and they are pressed again.  However many events of a batch are taken, what arrives with
the repair is such a batch again.  The statements are about the events that were taken, over both
injectors.
-/

namespace VKey.Output

/-! ## The events of a replacement -/

/-- The bait, the backspaces and the characters. -/
def typedEvents (d : Desktop) (emitBait : Bool) (backspaces : Nat) (text : List WChar) :
    List Input :=
  (if emitBait then tapChar 0x202F else [])
    ++ (List.replicate backspaces (tapKey d vkBack)).flatten ++
    text.flatMap tapChar

/-- Events between released modifiers. -/
def neutrally (d : Desktop) (keys : List Nat) (body : List Input) : List Input :=
  bracketed (fun vk => makeKeyEvent d vk true) (fun vk => makeKeyEvent d vk false) keys body

/-- The events of a replacement: the key passed on, the modifiers released, the bait, the
backspaces, the characters, and the modifiers pressed. -/
def replacementEvents (d : Desktop) (held : HeldModifiers) (emitBait : Bool) (backspaces : Nat)
    (text : List WChar) (reinjectVk : Nat) : List Input :=
  reinjectEvents d reinjectVk ++ neutrally d held.vks (typedEvents d emitBait backspaces text)

theorem length_reinjectEvents (d : Desktop) (reinjectVk : Nat) :
    (reinjectEvents d reinjectVk).length = if reinjectVk ≠ 0 then 1 else 0 := by
  unfold reinjectEvents
  split_ifs <;> rfl

/-- A batch is filled if all the events fit. -/
theorem fillBatch_eq (d : Desktop) (held : HeldModifiers) (emitBait : Bool) (bsCount : UInt64)
    (text : List WChar) (reinjectVk : Nat) :
    fillBatch d held emitBait bsCount text reinjectVk =
      let events := replacementEvents d held emitBait (backspaces emitBait bsCount).toNat text
        reinjectVk
      if events.length ≤ kMaxBatch then some events else none := by
  have hlead : (reinjectEvents d reinjectVk).length ≤ kMaxBatch := by
    rw [length_reinjectEvents, kMaxBatch]
    split_ifs <;> omega
  have hpush : fillBatch d held emitBait bsCount text reinjectVk =
      pushAll kMaxBatch ((held.vks.map fun vk => [makeKeyEvent d vk true]) ++
        ((if emitBait then [tapChar 0x202F] else []) ++
        (List.replicate (backspaces emitBait bsCount).toNat (tapKey d vkBack) ++
        (text.map tapChar ++ held.vks.map fun vk => [makeKeyEvent d vk false]))))
        (reinjectEvents d reinjectVk) := by
    simp only [pushAll_append]
    rfl
  have hflatten : (((held.vks.map fun vk => [makeKeyEvent d vk true]) ++
      ((if emitBait then [tapChar 0x202F] else []) ++
      (List.replicate (backspaces emitBait bsCount).toNat (tapKey d vkBack) ++
      (text.map tapChar ++ held.vks.map fun vk => [makeKeyEvent d vk false])))).flatten) =
      neutrally d held.vks
        (typedEvents d emitBait (backspaces emitBait bsCount).toNat text) := by
    have hone : ∀ keyup, (held.vks.map fun vk => [makeKeyEvent d vk keyup]).flatten =
        held.vks.map fun vk => makeKeyEvent d vk keyup := by
      intro keyup
      rw [← List.flatMap_def]
      exact List.flatMap_pure_eq_map ..
    rw [neutrally, bracketed, typedEvents]
    simp only [List.flatten_append, hone, ← List.flatMap_def, List.append_assoc]
    congr 2
    cases emitBait <;> simp
  rw [hpush, pushAll_eq kMaxBatch hlead, hflatten]
  simp only [replacementEvents, List.length_append]

/-! ## What a batch delivers -/

/-- Every batch that presses modifiers again was taken. -/
def RestoresSucceed (actions : List Action) : Prop :=
  ∀ events sent, Action.sendInput true events sent ∈ actions → sent = events.length

theorem delivered_append (first second : List Action) :
    delivered (first ++ second) = delivered first ++ delivered second := List.flatMap_append

theorem RestoresSucceed.of_append {first second : List Action}
    (h : RestoresSucceed (first ++ second)) : RestoresSucceed first ∧ RestoresSucceed second :=
  ⟨fun events sent hmem => h events sent (List.mem_append_left _ hmem),
    fun events sent hmem => h events sent (List.mem_append_right _ hmem)⟩

/-- What the repair does: it presses the modifiers that are left open. -/
theorem restoreModifiersAfterPartialSend_spec (d : Desktop) (held : HeldModifiers)
    (sent releaseStart restoreStart : Nat) (t : Trace) :
    ∃ repair, (restoreModifiersAfterPartialSend d held sent releaseStart restoreStart t).actions =
        t.actions ++ repair ∧
      (RestoresSucceed repair → delivered repair =
        (leftOpen held.vks sent releaseStart restoreStart).map fun vk =>
        makeKeyEvent d vk false) := by
  unfold restoreModifiersAfterPartialSend
  dsimp only
  split_ifs with hsome
  · refine ⟨_, rfl, fun hrestored => ?_⟩
    have hall := hrestored _ _ (List.mem_singleton.mpr rfl)
    simp only [delivered, List.flatMap_cons, List.flatMap_nil, List.append_nil, Action.delivered]
    rw [hall, List.take_length]
    rfl
  · refine ⟨[], (List.append_nil _).symm, fun _ => ?_⟩
    rw [List.length_map, Nat.pos_iff_ne_zero, not_not, List.length_eq_zero_iff] at hsome
    rw [hsome]
    rfl

/-- The events after the first ones are a prefix of a neutral batch, closed. -/
def DeliversNeutrally (d : Desktop) (skip : Nat) (keys : List Nat) (body : List Input)
    (actions : List Action) : Prop :=
  ∃ n m, (delivered actions).drop skip = neutrally d (keys.take n) (body.take m)

/-- A batch that was sent and repaired. -/
theorem deliversNeutrally_repaired {d : Desktop} (lead : List Input) {body : List Input}
    {keys : List Nat} {sent : Nat} {repair : List Action}
    (hrepair : delivered repair = (leftOpen keys sent lead.length
      (lead.length + keys.length + body.length)).map fun vk => makeKeyEvent d vk false) :
    DeliversNeutrally d lead.length keys body
      (.sendInput false (lead ++ neutrally d keys body) sent :: repair) := by
  refine ⟨sent - lead.length, sent - lead.length - keys.length, ?_⟩
  have hdelivered : delivered (.sendInput false (lead ++ neutrally d keys body) sent :: repair) =
      lead.take sent ++ neutrally d (keys.take (sent - lead.length))
        (body.take (sent - lead.length - keys.length)) := by
    refine Eq.trans ?_ (take_append_leftOpen (fun vk => makeKeyEvent d vk true)
      (fun vk => makeKeyEvent d vk false) lead keys body sent)
    rw [← hrepair]
    rfl
  rw [hdelivered]
  rcases Nat.le_total lead.length sent with hle | hle
  · rw [List.take_of_length_le hle, List.drop_left]
  · have hzero : sent - lead.length = 0 := by omega
    have hshort : (lead.take sent).drop lead.length = [] := by
      rw [List.drop_eq_nil_iff, List.length_take]
      omega
    rw [List.drop_append, hshort, hzero]
    simp [neutrally, bracketed]

theorem leftOpen_eq_nil {keys : List Nat} {sent openStart closeStart : Nat}
    (h : closeStart + keys.length ≤ sent ∨ keys = [] ∨ sent = 0) :
    leftOpen keys sent openStart closeStart = [] := by
  rw [leftOpen_eq]
  rcases h with hall | rfl | rfl
  · rw [List.drop_eq_nil_iff, List.length_take]
    omega
  · simp
  · simp

theorem sendBatch_spec (d : Desktop) (held : HeldModifiers) (body : List Input) (reinjectVk : Nat)
    (t : Trace) :
    let batch := reinjectEvents d reinjectVk ++ neutrally d held.vks body
    ∃ sent repair, (sendBatch d held batch reinjectVk t).2.actions =
        t.actions ++ .sendInput false batch sent :: repair ∧
      (RestoresSucceed repair →
        DeliversNeutrally d (reinjectEvents d reinjectVk).length held.vks body
        (.sendInput false batch sent :: repair)) ∧
      ((sendBatch d held batch reinjectVk t).1 = true → sent = batch.length ∧ repair = []) := by
  intro batch
  have hlength : batch.length =
      (reinjectEvents d reinjectVk).length + held.vks.length + body.length + held.vks.length := by
    simp only [batch, neutrally, List.length_append, length_bracketed]
    omega
  unfold sendBatch
  rw [← length_reinjectEvents d reinjectVk]
  dsimp only
  split_ifs with hrestore <;> simp only [Bool.and_eq_true, Bool.not_eq_true', decide_eq_true_eq,
    trackedSendInput_fst, trackedSendInput_sent, beq_eq_false_iff_ne] at hrestore
  · obtain ⟨repair, hactions, hdelivered⟩ := restoreModifiersAfterPartialSend_spec d held
      (trackedSendInput d false batch t).2.1 (reinjectEvents d reinjectVk).length
      (batch.length - held.count) (trackedSendInput d false batch t).2.2
    refine ⟨d.accepts t.actions batch, repair, ?_, fun hrestored => ?_, fun htrue => ?_⟩
    · rw [hactions, trackedSendInput_actions, List.append_assoc]
      rfl
    · refine deliversNeutrally_repaired _ ?_
      have hstart : batch.length - held.count =
          (reinjectEvents d reinjectVk).length + held.vks.length + body.length := by
        rw [hlength, HeldModifiers.count]
        omega
      rw [hdelivered hrestored, hstart, trackedSendInput_sent]
    · exact absurd (by simpa using htrue) hrestore.1.1
  · refine ⟨d.accepts t.actions batch, [], trackedSendInput_actions .., fun _ =>
      ?_, fun htrue => ?_⟩
    · refine deliversNeutrally_repaired _ ?_
      rw [leftOpen_eq_nil]
      · rfl
      · by_cases hall : d.accepts t.actions batch = batch.length
        · exact .inl (by omega)
        · by_cases hnone : held.vks = []
          · exact .inr (.inl hnone)
          · have hcount : 0 < held.count := List.length_pos_iff.mpr hnone
            exact .inr (.inr (Nat.eq_zero_of_not_pos fun hsent =>
              hrestore ⟨⟨hall, hcount⟩, decide_eq_true hsent⟩))
    · exact ⟨by simpa using htrue, rfl⟩

/-! ## Released and pressed again -/

/-- Every release of the key is followed by one press of it, before the next release. -/
def PairedReleases (vk : Nat) (events : List Input) : Prop :=
  ∃ n, (events.filter (·.wVk == vk)).map Input.keyup = (List.replicate n [true, false]).flatten

theorem pairedReleases_nil (vk : Nat) : PairedReleases vk [] := ⟨0, rfl⟩

theorem PairedReleases.append {vk : Nat} {first second : List Input}
    (hfirst : PairedReleases vk first) (hsecond : PairedReleases vk second) :
    PairedReleases vk (first ++ second) := by
  obtain ⟨n, hn⟩ := hfirst
  obtain ⟨m, hm⟩ := hsecond
  refine ⟨n + m, ?_⟩
  rw [List.filter_append, List.map_append, hn, hm, List.replicate_add, List.flatten_append]

/-- Neither characters nor backspaces are modifiers. -/
theorem wVk_of_mem_typedEvents {d : Desktop} {emitBait : Bool} {backspaces : Nat}
    {text : List WChar} {e : Input} (h : e ∈ typedEvents d emitBait backspaces text) :
    e.wVk = 0 ∨ e.wVk = vkBack := by
  have hchar : ∀ {ch : WChar}, e ∈ tapChar ch → e.wVk = 0 := by
    intro ch he
    simp only [tapChar, List.mem_cons, List.not_mem_nil, or_false] at he
    rcases he with rfl | rfl <;> rfl
  rw [typedEvents, List.mem_append, List.mem_append] at h
  rcases h with (hbait | hback) | htext
  · split_ifs at hbait
    · exact .inl (hchar hbait)
    · simp at hbait
  · obtain ⟨group, hgroup, he⟩ := List.mem_flatten.mp hback
    rw [(List.mem_replicate.mp hgroup).2] at he
    simp only [tapKey, List.mem_cons, List.not_mem_nil, or_false] at he
    rcases he with rfl | rfl <;> exact .inr rfl
  · obtain ⟨ch, -, he⟩ := List.mem_flatMap.mp htext
    exact .inl (hchar he)

theorem pairedReleases_neutrally {d : Desktop} {keys : List Nat} {body : List Input} {vk : Nat}
    (hkeys : keys.Nodup) (hbody : ∀ e ∈ body, e.wVk = 0 ∨ e.wVk = vkBack)
    (hvk : vk ∈ modifierKeys) : PairedReleases vk (neutrally d keys body) := by
  have hnone : ∀ e ∈ body, (e.wVk == vk) = false := by
    intro e he
    rcases hbody e he with h | h <;> rw [h] <;> revert hvk vk <;> decide
  have hfilter : (neutrally d keys body).filter (·.wVk == vk) =
      if vk ∈ keys then [makeKeyEvent d vk true, makeKeyEvent d vk false] else [] :=
    filter_bracketed _ _ (fun _ => rfl) (fun _ => rfl) hnone hkeys
  refine ⟨if vk ∈ keys then 1 else 0, ?_⟩
  rw [hfilter]
  split_ifs <;> rfl

theorem DeliversNeutrally.paired {d : Desktop} {skip : Nat} {held : HeldModifiers}
    {emitBait : Bool} {backspaces : Nat} {text : List WChar} {actions : List Action}
    (h : DeliversNeutrally d skip held.vks (typedEvents d emitBait backspaces text) actions)
    {vk : Nat} (hvk : vk ∈ modifierKeys) :
    PairedReleases vk ((delivered actions).drop skip) := by
  obtain ⟨n, m, hdelivered⟩ := h
  rw [hdelivered]
  exact pairedReleases_neutrally (held.nodup.sublist (List.take_sublist _ _))
    (fun e he => wVk_of_mem_typedEvents (List.mem_of_mem_take he)) hvk

/-! ## Filled batches -/

theorem delivered_whole (events : List Input) :
    delivered [.sendInput false events events.length] = events := by
  simp [delivered, Action.delivered]

/-- Send a batch unless it is empty. -/
def sendFilled (d : Desktop) (held : HeldModifiers) (batch : List Input) (reinjectVk : Nat)
    (t : Trace) : Bool × Trace :=
  if batch.isEmpty then (true, t) else sendBatch d held batch reinjectVk t

theorem sendFilled_spec (d : Desktop) (held : HeldModifiers) (body : List Input) (reinjectVk : Nat)
    (t : Trace) :
    let batch := reinjectEvents d reinjectVk ++ neutrally d held.vks body
    let result := sendFilled d held batch reinjectVk t
    ∃ new, result.2.actions = t.actions ++ new ∧
      (RestoresSucceed new →
        DeliversNeutrally d (reinjectEvents d reinjectVk).length held.vks body new) ∧
      (result.1 = true → delivered new = batch) := by
  intro batch result
  by_cases hempty : batch.isEmpty = true
  · have hresult : result = (true, t) := if_pos hempty
    rw [hresult]
    refine ⟨[], (List.append_nil _).symm, fun _ =>
      ⟨0, 0, by simp [delivered, neutrally, bracketed]⟩, fun _ => ?_⟩
    rw [List.isEmpty_iff.mp hempty]
    rfl
  · have hresult : result = sendBatch d held batch reinjectVk t := if_neg hempty
    rw [hresult]
    obtain ⟨sent, repair, hactions, hneutral, hwhole⟩ := sendBatch_spec d held body reinjectVk t
    refine ⟨_, hactions, fun hrestored => ?_, fun htrue => ?_⟩
    · exact hneutral fun e n he => hrestored e n (List.mem_cons_of_mem _ he)
    · obtain ⟨rfl, rfl⟩ := hwhole htrue
      exact delivered_whole _

/-! ## One batch -/

theorem pairedReleases_delivered_nil (vk n : Nat) : PairedReleases vk ((delivered []).drop n) := by
  rw [delivered, List.flatMap_nil, List.drop_nil]
  exact pairedReleases_nil vk

/-- What a replacement in one batch does, with the number of backspaces as the code counts them. -/
theorem Win32SendInputInjector.replace_eq (injector : Win32SendInputInjector) (d : Desktop)
    (bsCount : UInt64) (text : List WChar) (reinjectVk : Nat) (t : Trace) :
    let held := heldModifiers d bsCount text reinjectVk t
    let emitBait := injector.emitsBait bsCount text
    let events :=
      replacementEvents d held emitBait (backspaces emitBait bsCount).toNat text reinjectVk
    injector.replace d bsCount text reinjectVk t =
      if events.length ≤ kMaxBatch then sendFilled d held events reinjectVk t else (false, t) := by
  unfold Win32SendInputInjector.replace
  dsimp only
  rw [fillBatch_eq]
  dsimp only
  split_ifs
  · rfl
  · rfl

theorem Win32SendInputInjector.replace_spec (injector : Win32SendInputInjector) (d : Desktop)
    (bsCount : UInt64) (text : List WChar) (reinjectVk : Nat) (t : Trace) :
    let held := heldModifiers d bsCount text reinjectVk t
    let emitBait := injector.emitsBait bsCount text
    let events :=
      replacementEvents d held emitBait (backspaces emitBait bsCount).toNat text reinjectVk
    let result := injector.replace d bsCount text reinjectVk t
    ∃ new, result.2.actions = t.actions ++ new ∧
      (RestoresSucceed new → ∀ vk ∈ modifierKeys,
        PairedReleases vk ((delivered new).drop (reinjectEvents d reinjectVk).length)) ∧
      (kMaxBatch < events.length → new = [] ∧ result.1 = false) ∧
      (result.1 = true → delivered new = events) := by
  intro held emitBait events result
  have hreplace := injector.replace_eq d bsCount text reinjectVk t
  change result = if events.length ≤ kMaxBatch then sendFilled d held events reinjectVk t
    else (false, t) at hreplace
  by_cases hfits : events.length ≤ kMaxBatch
  · rw [if_pos hfits] at hreplace
    obtain ⟨new, hactions, hneutral, hwhole⟩ := sendFilled_spec d held
      (typedEvents d emitBait (backspaces emitBait bsCount).toNat text) reinjectVk t
    rw [hreplace]
    exact ⟨new, hactions, fun hrestored vk hvk => (hneutral hrestored).paired hvk,
      fun hlong => absurd hfits (Nat.not_le.mpr hlong), hwhole⟩
  · rw [if_neg hfits] at hreplace
    rw [hreplace]
    exact ⟨[], (List.append_nil _).symm, fun _ vk _ => pairedReleases_delivered_nil vk _,
      fun _ => ⟨rfl, rfl⟩, fun h => by simp at h⟩

/-! ## Two batches -/

namespace SplitDispatchInjector

/-- The characters and the modifiers around them never run over the buffer of the second batch. -/
theorem pushAll_chars {d : Desktop} {held : HeldModifiers} {text : List WChar}
    (hshort : text.length ≤ kMaxBatch / 2) :
    pushAll (kMaxBatch + 16) (text.map tapChar) (held.vks.map fun vk => makeKeyEvent d vk true) =
        some ((held.vks.map fun vk => makeKeyEvent d vk true) ++ text.flatMap tapChar) ∧
      (neutrally d held.vks (text.flatMap tapChar)).length ≤ kMaxBatch + 16 := by
  have hcount := held.count_le
  have hlength : (text.flatMap tapChar).length = 2 * text.length := by
    rw [List.length_flatMap]
    simp [tapChar, Nat.mul_comm]
  simp only [HeldModifiers.count, kMaxBatch] at hcount hshort ⊢
  rw [neutrally, length_bracketed, hlength, pushAll_eq _ (by rw [List.length_map]; omega),
    ← List.flatMap_def, hlength, List.length_map, if_pos (by omega)]
  exact ⟨rfl, by omega⟩

/-- A batch between released modifiers, sent and repaired. -/
theorem sendRestoring_spec (d : Desktop) (held : HeldModifiers) (body : List Input) (t : Trace) :
    let batch := neutrally d held.vks body
    let sent := trackedSendInput d false batch t
    let result :=
      if !sent.1 then
        (false, restoreModifiersAfterPartialSend d held sent.2.1 0 (held.vks.length + body.length)
          sent.2.2)
      else (true, sent.2.2)
    ∃ new, result.2.actions = t.actions ++ new ∧
      (RestoresSucceed new → DeliversNeutrally d 0 held.vks body new) ∧
      (result.1 = true → delivered new = batch) := by
  intro batch sent result
  have hlead : ([] : List Input).length + held.vks.length + body.length =
      held.vks.length + body.length := by simp
  by_cases hpart : (!sent.1) = true
  · have hresult : result = (false, restoreModifiersAfterPartialSend d held sent.2.1 0
        (held.vks.length + body.length) sent.2.2) := if_pos hpart
    obtain ⟨repair, hactions, hrepair⟩ := restoreModifiersAfterPartialSend_spec d held sent.2.1 0
      (held.vks.length + body.length) sent.2.2
    rw [hresult]
    refine ⟨.sendInput false batch sent.2.1 :: repair, ?_, fun hrestored =>
      ?_, fun h => by simp at h⟩
    · exact hactions.trans (List.append_assoc ..)
    · have hclosed := hrepair fun e n he => hrestored e n (List.mem_cons_of_mem _ he)
      rw [← hlead] at hclosed
      exact deliversNeutrally_repaired [] hclosed
  · have hresult : result = (true, sent.2.2) := if_neg hpart
    have hwhole : sent.2.1 = batch.length := by simpa [sent] using hpart
    rw [hresult]
    refine ⟨[.sendInput false batch sent.2.1], rfl, fun _ => ?_, fun _ => ?_⟩
    · have hall : held.vks.length + body.length + held.vks.length ≤ sent.2.1 := by
        rw [hwhole]
        simp only [batch, neutrally, length_bracketed]
        omega
      have hclosed : delivered [] = (leftOpen held.vks sent.2.1 ([] : List Input).length
          (([] : List Input).length + held.vks.length + body.length)).map
            fun vk => makeKeyEvent d vk false := by
        rw [hlead, leftOpen_eq_nil (.inl hall)]
        rfl
      exact deliversNeutrally_repaired [] hclosed
    · rw [hwhole]
      exact delivered_whole _

/-- What sending the characters does. -/
theorem sendChars_spec (injector : SplitDispatchInjector) (d : Desktop) (bsCount : UInt64)
    {text : List WChar} (hshort : text.length ≤ kMaxBatch / 2) (t : Trace) :
    let result := injector.sendChars d bsCount text t
    ∃ pause new, result.2.actions = t.actions ++ (pause ++ new) ∧ delivered pause = [] ∧
      (RestoresSucceed new → ∀ vk ∈ modifierKeys, PairedReleases vk (delivered new)) ∧
      (result.1 = true → delivered new = if text.isEmpty then [] else
        neutrally d (queryHeldModifiers (d.keyDown (t.actions ++ pause)) 0 text false).vks
          (text.flatMap tapChar)) := by
  intro result
  by_cases hempty : text.isEmpty = true
  · have hresult : result = (true, t) := if_pos hempty
    rw [hresult]
    exact ⟨[], [], (List.append_nil _).symm, rfl, fun _ vk _ => pairedReleases_nil vk,
      fun _ => by rw [if_pos hempty]; rfl⟩
  · let pause : List Action :=
      if bsCount ≠ 0 then [.sleep (injector.sleepMs % 0x100000000).toNat] else []
    let held := queryHeldModifiers (d.keyDown (t.actions ++ pause)) 0 text false
    let batch := neutrally d held.vks (text.flatMap tapChar)
    have hresult : result = if batch.isEmpty then (true, ⟨t.actions ++ pause, t.synthCount⟩) else
        let sent := trackedSendInput d false batch ⟨t.actions ++ pause, t.synthCount⟩
        if !sent.1 then
          (false, restoreModifiersAfterPartialSend d held sent.2.1 0
            (held.vks.length + (text.flatMap tapChar).length) sent.2.2)
        else (true, sent.2.2) := by
      have hpause : (if bsCount ≠ 0 then
            { t with actions := t.actions ++ [.sleep (injector.sleepMs % 0x100000000).toNat] }
          else t) =
          (⟨t.actions ++ pause, t.synthCount⟩ : Trace) := by
        simp only [pause]
        split_ifs
        · rfl
        · rw [List.append_nil]
      simp only [result, sendChars, if_neg hempty]
      rw [hpause]
      simp only [charModifiers, (pushAll_chars hshort).1]
      rw [List.length_append, List.length_map]
      rfl
    have hpaired : ∀ {actions : List Action},
        DeliversNeutrally d 0 held.vks (text.flatMap tapChar) actions →
        ∀ vk ∈ modifierKeys, PairedReleases vk (delivered actions) := by
      intro actions hneutral vk hvk
      have htyped : text.flatMap tapChar = typedEvents d false 0 text := by simp [typedEvents]
      rw [htyped] at hneutral
      exact hneutral.paired hvk
    have hdelivered : delivered pause = [] := by
      simp only [pause]
      split_ifs <;> rfl
    simp only [if_neg hempty]
    rw [hresult]
    refine ⟨pause, ?_⟩
    split_ifs with hnone
    · refine ⟨[], by rw [List.append_nil], hdelivered, fun _ vk _ => pairedReleases_nil vk,
        fun _ => ?_⟩
      exact (List.isEmpty_iff.mp hnone).symm
    · obtain ⟨new, hactions, hneutral, hwhole⟩ := sendRestoring_spec d held (text.flatMap tapChar)
        ⟨t.actions ++ pause, t.synthCount⟩
      exact ⟨new, hactions.trans (List.append_assoc ..), hdelivered,
        fun hrestored => hpaired (hneutral hrestored), hwhole⟩

/-- What a replacement in two batches does, with the number of backspaces as the code counts
them. -/
theorem replace_eq (injector : SplitDispatchInjector) (d : Desktop) (bsCount : UInt64)
    (text : List WChar) (reinjectVk : Nat) (t : Trace) :
    let held := heldModifiers d bsCount reinjectVk t
    let emitBait := injector.emitsBait bsCount text
    let events :=
      replacementEvents d held emitBait (backspaces emitBait bsCount).toNat [] reinjectVk
    let sent := sendFilled d held events reinjectVk t
    injector.replace d bsCount text reinjectVk t =
      if kMaxBatch / 2 < text.length ∨ kMaxBatch < events.length then (false, t)
      else if sent.1 then injector.sendChars d (backspaces emitBait bsCount) text sent.2
      else (false, sent.2) := by
  intro held emitBait events sent
  have hreplace : injector.replace d bsCount text reinjectVk t =
      if kMaxBatch / 2 < text.length then (false, t)
      else if events.length ≤ kMaxBatch then
        if sent.1 then injector.sendChars d (backspaces emitBait bsCount) text sent.2
        else (false, sent.2)
      else (false, t) := by
    unfold replace
    dsimp only
    rw [fillBatch_eq]
    dsimp only
    refine if_congr Iff.rfl rfl ?_
    by_cases hfits : events.length ≤ kMaxBatch
    · rw [if_pos hfits, if_pos hfits]
      dsimp only
      by_cases hempty : events.isEmpty = true
      · have hsent : sent = (true, t) := if_pos hempty
        rw [if_pos hempty, hsent]
        rfl
      · have hsent : sent = sendBatch d held events reinjectVk t := if_neg hempty
        rw [if_neg hempty, hsent]
        rcases sendBatch d held events reinjectVk t with ⟨_ | _, t'⟩
        · rfl
        · rfl
    · rw [if_neg hfits, if_neg hfits]
  rw [hreplace]
  split_ifs <;> first | rfl | omega

theorem replace_spec (injector : SplitDispatchInjector) (d : Desktop) (bsCount : UInt64)
    (text : List WChar) (reinjectVk : Nat) (t : Trace) :
    let held := heldModifiers d bsCount reinjectVk t
    let emitBait := injector.emitsBait bsCount text
    let events :=
      replacementEvents d held emitBait (backspaces emitBait bsCount).toNat [] reinjectVk
    let result := injector.replace d bsCount text reinjectVk t
    ∃ before new, result.2.actions = t.actions ++ (before ++ new) ∧
      (RestoresSucceed (before ++ new) → ∀ vk ∈ modifierKeys, PairedReleases vk
        ((delivered (before ++ new)).drop (reinjectEvents d reinjectVk).length)) ∧
      (kMaxBatch / 2 < text.length ∨ kMaxBatch < events.length →
        before ++ new = [] ∧ result.1 = false) ∧
      (result.1 = true → delivered (before ++ new) = events ++ if text.isEmpty then [] else
        neutrally d (queryHeldModifiers (d.keyDown (t.actions ++ before)) 0 text false).vks
          (text.flatMap tapChar)) := by
  intro held emitBait events result
  have hreplace := injector.replace_eq d bsCount text reinjectVk t
  dsimp only at hreplace
  by_cases htoo : kMaxBatch / 2 < text.length ∨ kMaxBatch < events.length
  · rw [if_pos htoo] at hreplace
    have hresult : result = (false, t) := hreplace
    rw [hresult]
    exact ⟨[], [], (List.append_nil _).symm, fun _ vk _ => pairedReleases_delivered_nil vk _,
      fun _ => ⟨rfl, rfl⟩, fun h => by simp at h⟩
  · rw [if_neg htoo] at hreplace
    obtain ⟨first, hactions, hneutral, hwhole⟩ := sendFilled_spec d held
      (typedEvents d emitBait (backspaces emitBait bsCount).toNat []) reinjectVk t
    change (sendFilled d held events reinjectVk t).2.actions = _ at hactions
    change (sendFilled d held events reinjectVk t).1 = true → delivered first = events at hwhole
    change result = if (sendFilled d held events reinjectVk t).1 = true then
      injector.sendChars d (backspaces emitBait bsCount)
        text (sendFilled d held events reinjectVk t).2
      else (false, (sendFilled d held events reinjectVk t).2) at hreplace
    generalize sendFilled d held events reinjectVk t = sent at hreplace hactions hwhole
    obtain ⟨ok, t'⟩ := sent
    cases ok with
    | false =>
        have hresult : result = (false, t') := hreplace
        rw [hresult]
        refine ⟨first, [], by rw [List.append_nil]; exact hactions, fun hrestored vk hvk => ?_,
          fun h => absurd h htoo, fun h => by simp at h⟩
        rw [List.append_nil] at hrestored ⊢
        exact (hneutral hrestored).paired hvk
    | true =>
        obtain ⟨hshort, -⟩ := not_or.mp htoo
        obtain ⟨pause, new, hactions', hpause, hpaired, hchars⟩ :=
          injector.sendChars_spec d (backspaces emitBait bsCount) (Nat.not_lt.mp hshort) t'
        have hfirst : delivered first = events := hwhole rfl
        have hall : delivered (first ++ pause ++ new) = events ++ delivered new := by
          rw [delivered_append, delivered_append, hpause, List.append_nil, hfirst]
        have hresult : result = injector.sendChars d (backspaces emitBait bsCount) text t' :=
          hreplace
        dsimp only at hactions
        rw [hresult]
        refine ⟨first ++ pause, new, ?_, fun hrestored vk hvk => ?_, fun h => absurd h htoo,
          fun htrue => ?_⟩
        · rw [hactions', hactions]
          simp only [List.append_assoc]
        · have hlead : (reinjectEvents d reinjectVk).length ≤ (delivered first).length := by
            rw [hfirst]
            simp only [events, replacementEvents, List.length_append]
            omega
          rw [hall, ← hfirst, List.drop_append_of_le_length hlead]
          exact ((hneutral hrestored.of_append.1.of_append.1).paired hvk).append
            (hpaired hrestored.of_append.2 vk hvk)
        · rw [hall, hchars htrue, hactions, List.append_assoc]

end SplitDispatchInjector

/-! ## Replacements -/

/-- The bait and the backspace for it are one more than the counter can hold. -/
def CounterWraps (emitBait : Bool) (bsCount : UInt64) : Prop :=
  emitBait = true ∧ bsCount.toNat + 1 = 2 ^ 64

/-- The requested backspaces, and one for the bait. -/
def requestedBackspaces (emitBait : Bool) (bsCount : UInt64) : Nat :=
  bsCount.toNat + if emitBait then 1 else 0

theorem toNat_backspaces {emitBait : Bool} {bsCount : UInt64}
    (h : ¬ CounterWraps emitBait bsCount) :
    (backspaces emitBait bsCount).toNat = requestedBackspaces emitBait bsCount := by
  cases emitBait with
  | false => rfl
  | true =>
      have hlt := bsCount.toNat_lt
      have hne : bsCount.toNat + 1 ≠ 2 ^ 64 := fun heq => h ⟨rfl, heq⟩
      simp only [backspaces, requestedBackspaces, if_true, UInt64.toNat_add]
      exact Nat.mod_eq_of_lt (by simpa using Nat.lt_of_le_of_ne hlt hne)

/-- However many events are taken, every modifier that a replacement releases is pressed again once,
if the presses of the repair are taken.  A replacement that does not fit sends nothing and fails.
One that succeeds has sent the key passed on, the modifiers released, the bait, the requested
backspaces and one for the bait, the characters, and the modifiers pressed; in two batches, the
modifiers are pressed before the characters and those held then are released and pressed around
them. -/
theorem replace_safe (single : Win32SendInputInjector) (split : SplitDispatchInjector) (d : Desktop)
    (bsCount : UInt64) (text : List WChar) (reinjectVk : Nat) (t : Trace) :
    (∃ new, (single.replace d bsCount text reinjectVk t).2.actions = t.actions ++ new ∧
      (RestoresSucceed new → ∀ vk ∈ modifierKeys,
        PairedReleases vk ((delivered new).drop (reinjectEvents d reinjectVk).length)) ∧
      (¬ CounterWraps (single.emitsBait bsCount text) bsCount →
        let events := replacementEvents d
          (Win32SendInputInjector.heldModifiers d bsCount text reinjectVk t)
          (single.emitsBait bsCount text)
          (requestedBackspaces (single.emitsBait bsCount text) bsCount) text reinjectVk
        (kMaxBatch < events.length →
          new = [] ∧ (single.replace d bsCount text reinjectVk t).1 = false) ∧
        ((single.replace d bsCount text reinjectVk t).1 = true → delivered new = events))) ∧
    (∃ before new, (split.replace d bsCount text reinjectVk t).2.actions =
        t.actions ++ (before ++ new) ∧
      (RestoresSucceed (before ++ new) → ∀ vk ∈ modifierKeys, PairedReleases vk
        ((delivered (before ++ new)).drop (reinjectEvents d reinjectVk).length)) ∧
      (¬ CounterWraps (split.emitsBait bsCount text) bsCount →
        let events := replacementEvents d
          (SplitDispatchInjector.heldModifiers d bsCount reinjectVk t)
          (split.emitsBait bsCount text)
          (requestedBackspaces (split.emitsBait bsCount text) bsCount) [] reinjectVk
        (kMaxBatch / 2 < text.length ∨ kMaxBatch < events.length →
          before ++ new = [] ∧ (split.replace d bsCount text reinjectVk t).1 = false) ∧
        ((split.replace d bsCount text reinjectVk t).1 = true →
          delivered (before ++ new) = events ++ if text.isEmpty then [] else
            neutrally d (queryHeldModifiers (d.keyDown (t.actions ++ before)) 0 text false).vks
              (text.flatMap tapChar)))) := by
  refine ⟨?_, ?_⟩
  · obtain ⟨new, hactions, hpaired, hlong, hsent⟩ :=
      single.replace_spec d bsCount text reinjectVk t
    refine ⟨new, hactions, hpaired, fun hwraps => ?_⟩
    rw [toNat_backspaces hwraps] at hlong hsent
    exact ⟨hlong, hsent⟩
  · obtain ⟨before, new, hactions, hpaired, hlong, hsent⟩ :=
      split.replace_spec d bsCount text reinjectVk t
    refine ⟨before, new, hactions, hpaired, fun hwraps => ?_⟩
    rw [toNat_backspaces hwraps] at hlong hsent
    exact ⟨hlong, hsent⟩

/-- A desktop with the left Control key held, where the first batch is cut after two events if
`cuts`. -/
def controlDesktop (cuts : Bool) : Desktop where
  mapVirtualKey vk := vk
  keyDown _ vk := vk == vkControl || vk == vkLControl
  accepts history events := if cuts && history.isEmpty then min 2 events.length else events.length
  accepts_le history events := by
    split_ifs
    · exact Nat.min_le_right _ _
    · exact Nat.le_refl _
  hasSynthCounter := false

/-- The first backspace is pressed and the rest of the batch is lost; Control is pressed again. -/
theorem replace_safe_control :
    ((Win32SendInputInjector.mk false false).replace (controlDesktop true) 1 [L 'a'] 0 {}).1 =
        false ∧
      PairedReleases vkLControl (delivered ((Win32SendInputInjector.mk false false).replace
        (controlDesktop true) 1 [L 'a'] 0 {}).2.actions) := by
  refine ⟨by decide, ?_⟩
  obtain ⟨⟨new, hactions, hpaired, -⟩, -⟩ := replace_safe ⟨false, false⟩ ⟨6, false, false⟩
    (controlDesktop true) 1 [L 'a'] 0 {}
  rw [List.nil_append] at hactions
  have hrestored : RestoresSucceed new := by
    have hnew : new = [.sendInput false [⟨0xA2, 0xA2, true, false, false, 0x4E4B⟩,
        ⟨8, 8, false, false, false, 0x4E4B⟩, ⟨8, 8, true, false, false, 0x4E4B⟩,
        ⟨0, 0x61, false, false, true, 0x4E4B⟩, ⟨0, 0x61, true, false, true, 0x4E4B⟩,
        ⟨0xA2, 0xA2, false, false, false, 0x4E4B⟩] 2,
        .sendInput true [⟨0xA2, 0xA2, false, false, false, 0x4E4B⟩] 1] := by
      rw [← hactions]
      decide
    intro events sent hmem
    rw [hnew] at hmem
    simp only [List.mem_cons, List.not_mem_nil, or_false, Action.sendInput.injEq] at hmem
    rcases hmem with ⟨h, -, -⟩ | ⟨-, rfl, rfl⟩
    · simp at h
    · rfl
  rw [hactions]
  exact hpaired hrestored vkLControl (by decide)

/-- In two batches the held Control key is pressed before the characters. -/
theorem not_split_replacementEvents :
    ¬ ∀ (split : SplitDispatchInjector) (d : Desktop) (bsCount : UInt64) (text : List WChar)
      (reinjectVk : Nat), (split.replace d bsCount text reinjectVk {}).1 = true →
      ∃ held, delivered (split.replace d bsCount text reinjectVk {}).2.actions =
        replacementEvents d held (split.emitsBait bsCount text)
          (requestedBackspaces (split.emitsBait bsCount text) bsCount) text reinjectVk := by
  intro h
  obtain ⟨held, hsent⟩ := h ⟨6, false, false⟩ (controlDesktop false) 1 [L 'a'] 0 (by decide)
  have hups : (delivered ((SplitDispatchInjector.mk 6 false false).replace (controlDesktop false) 1
      [L 'a'] 0 {}).2.actions).map Input.keyup =
      [true, false, true, false, true, false, true, false] := by
    decide
  have hshape : (replacementEvents (controlDesktop false) held false 1 [L 'a'] 0).map Input.keyup =
      List.replicate held.vks.length true ++ [false, true, false, true] ++
        List.replicate held.vks.length false := by
    rw [replacementEvents, neutrally, bracketed]
    simp only [List.map_append, List.map_map, ← List.map_const']
    rfl
  have hrequested : delivered ((SplitDispatchInjector.mk 6 false false).replace
      (controlDesktop false) 1 [L 'a'] 0 {}).2.actions =
      replacementEvents (controlDesktop false) held false 1 [L 'a'] 0 := hsent
  rw [hrequested, hshape] at hups
  have hcount : held.vks.length = 2 := by
    have hlength := congrArg List.length hups
    simp only [List.length_append, List.length_replicate, List.length_cons,
      List.length_nil] at hlength
    omega
  rw [hcount] at hups
  exact absurd hups (by decide)

end VKey.Output
