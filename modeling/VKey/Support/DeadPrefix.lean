import Mathlib.Data.List.Infix
import Mathlib.Data.Set.Basic

/-!
# Dead prefixes

A list is a dead prefix of a language if no word of the language begins with it.  A scanner that has
read one need not read on: no continuation is accepted.

Many languages consist of words in three blocks, of which only the middle one has elements of a
class.  What such a word begins with, and what it continues with behind an element of the class, is
read off the blocks.
-/

namespace VKey

variable {α : Type}

/-! ## Dead prefixes of a language -/

section Dead

variable {language : Set (List α)} {front : List α}

/-- No word of the language begins with the list. -/
def IsDeadPrefix (language : Set (List α)) (front : List α) : Prop :=
  ∀ word ∈ language, ¬ front <+: word

theorem IsDeadPrefix.not_mem (h : IsDeadPrefix language front) : front ∉ language :=
  fun hmem => h front hmem (List.prefix_refl front)

/-- A dead prefix stays one, however it is continued. -/
theorem IsDeadPrefix.of_isPrefix {longer : List α} (h : IsDeadPrefix language front)
    (hbegins : front <+: longer) : IsDeadPrefix language longer :=
  fun word hmem hlonger => h word hmem (hbegins.trans hlonger)

end Dead

/-! ## Words in three blocks -/

/-- A word in three blocks, of which the middle one is the elements of the class. -/
structure InBlocks (p : α → Bool) (word onset nucleus coda : List α) : Prop where
  word_eq : word = onset ++ (nucleus ++ coda)
  onset_out : ∀ a ∈ onset, p a = false
  nucleus_ne_nil : nucleus ≠ []
  nucleus_in : ∀ a ∈ nucleus, p a = true
  coda_out : ∀ a ∈ coda, p a = false

namespace InBlocks

variable {p : α → Bool} {word onset nucleus coda run u w : List α} {a b c : α}

/-- Elements outside the class that a word begins with are the beginning of its onset. -/
theorem prefix_onset (h : InBlocks p word onset nucleus coda) (hrun : ∀ x ∈ run, p x = false)
    (hbegins : run <+: word) : run <+: onset := by
  obtain ⟨tail, htail⟩ := hbegins
  rw [h.word_eq, List.append_eq_append_iff] at htail
  rcases htail with ⟨rest, honset, -⟩ | ⟨rest, hrest, hnucleus⟩
  · exact ⟨rest, honset.symm⟩
  · rcases rest with - | ⟨x, rest⟩
    · rw [hrest, List.append_nil]
    · obtain ⟨y, nucleus', hy⟩ := List.exists_cons_of_ne_nil h.nucleus_ne_nil
      rw [hy] at hnucleus
      have hxy : y = x := (List.cons.inj hnucleus).1
      have hx : p x = false := hrun x (by simp [hrest])
      have hin : p y = true := h.nucleus_in y (by simp [hy])
      rw [hxy, hx] at hin
      exact Bool.noConfusion hin

/-- Behind an element of the class a word continues with the rest of its nucleus and its coda. -/
theorem exists_tail (h : InBlocks p word onset nucleus coda) (hword : word = u ++ a :: w)
    (ha : p a = true) : ∃ rest, w = rest ++ coda ∧ ∀ x ∈ rest, p x = true := by
  have hout : ∀ block : List α, (∀ x ∈ block, p x = false) → a ∉ block := by
    intro block hblock hmem
    rw [hblock a hmem] at ha
    exact Bool.noConfusion ha
  rw [h.word_eq, List.append_eq_append_iff] at hword
  rcases hword with ⟨front, -, hfront⟩ | ⟨front, honset, hfront⟩
  · rw [List.append_eq_append_iff] at hfront
    rcases hfront with ⟨back, -, hback⟩ | ⟨back, hnucleus, hback⟩
    · exact absurd (by simp [hback]) (hout coda h.coda_out)
    · rcases back with - | ⟨x, rest⟩
      · have hcoda : coda = a :: w := hback.symm
        exact absurd (by simp [hcoda]) (hout coda h.coda_out)
      · obtain ⟨-, hw⟩ := List.cons.inj hback
        exact ⟨rest, hw, fun y hy => h.nucleus_in y (by simp [hnucleus, hy])⟩
  · rcases front with - | ⟨x, front⟩
    · obtain ⟨y, rest, hy⟩ := List.exists_cons_of_ne_nil h.nucleus_ne_nil
      rw [hy] at hfront
      obtain ⟨-, hw⟩ := List.cons.inj hfront
      exact ⟨rest, hw, fun z hz => h.nucleus_in z (by simp [hy, hz])⟩
    · obtain ⟨hx, -⟩ := List.cons.inj hfront
      exact absurd (by simp [honset, hx]) (hout onset h.onset_out)

/-- Elements outside the class that follow one of the class are the beginning of the coda. -/
theorem prefix_coda (h : InBlocks p word onset nucleus coda) (ha : p a = true)
    (hrun : ∀ x ∈ run, p x = false) (hbegins : u ++ a :: run <+: word) : run <+: coda := by
  obtain ⟨w, hw⟩ := hbegins
  have hword : word = u ++ a :: (run ++ w) := by simp [← hw]
  obtain ⟨rest, hrest, hin⟩ := h.exists_tail hword ha
  rcases rest with - | ⟨x, rest⟩
  · exact ⟨w, hrest⟩
  · rcases run with - | ⟨y, run⟩
    · exact List.nil_prefix
    · have hxy : y = x := (List.cons.inj hrest).1
      have hx : p x = true := hin x (by simp)
      rw [← hxy, hrun y (by simp)] at hx
      exact Bool.noConfusion hx

/-- The class does not return: behind an element of it and one outside it there is none. -/
theorem no_return (h : InBlocks p word onset nucleus coda) (ha : p a = true) (hb : p b = false)
    (hsub : [a, b, c].Sublist word) : p c = false := by
  obtain ⟨front, back, hword, hfront, hback⟩ := List.cons_sublist_iff.mp hsub
  obtain ⟨u, v, rfl⟩ := List.append_of_mem hfront
  have hword' : word = u ++ a :: (v ++ back) := by simp [hword]
  obtain ⟨rest, hrest, hin⟩ := h.exists_tail hword' ha
  have hsub' : [b, c].Sublist (rest ++ coda) := by
    rw [← hrest]
    exact hback.trans (List.sublist_append_right v back)
  obtain ⟨first, second, hsplit, hfirst, hsecond⟩ := List.sublist_append_iff.mp hsub'
  rcases first with - | ⟨x, first⟩
  · rw [List.nil_append] at hsplit
    exact h.coda_out c (hsecond.subset (by simp [← hsplit]))
  · have hx : b = x := (List.cons.inj hsplit).1
    have hmem : p x = true := hin x (hfirst.subset (by simp))
    rw [← hx, hb] at hmem
    exact Bool.noConfusion hmem

end InBlocks

end VKey
