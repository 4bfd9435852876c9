import Mathlib.Data.List.Infix
import Mathlib.Data.List.Flatten

/-!
# Streams of code words

A sender turns frames into words over an alphabet and puts the words on a channel one after the
other; a receiver sees some first part of that stream. If no word is a prefix of another
(`IsPrefixCode`), what the receiver has seen determines which frames it has seen whole:

* `stream_prefix_iff`: one stream is a first part of another exactly if its frames are the first
  frames of the other;
* `exists_of_prefix_stream`: every first part of a stream is some of its first frames, whole, and
  then a proper first part of the next word.
-/

namespace PrefixCode

universe u v

variable {φ : Type u} {α : Type v} {enc : φ → List α}

/-- The words of the frames, one after the other. -/
def stream (enc : φ → List α) (xs : List φ) : List α :=
  xs.flatMap enc

@[simp] theorem stream_nil : stream enc [] = [] := rfl

@[simp] theorem stream_cons (x : φ) (xs : List φ) :
    stream enc (x :: xs) = enc x ++ stream enc xs := rfl

/-- The stream of two lists is that of the one and then that of the other. -/
@[simp] theorem stream_append (xs ys : List φ) :
    stream enc (xs ++ ys) = stream enc xs ++ stream enc ys :=
  List.flatMap_append

/-- The stream of one element is its code. -/
theorem stream_singleton (x : φ) : stream enc [x] = enc x := by
  simp

/-- No word is empty, and none is a prefix of the word of another frame. -/
structure IsPrefixCode (enc : φ → List α) : Prop where
  /-- No word is empty. -/
  ne_nil : ∀ x, enc x ≠ []
  /-- A word that is a prefix of a word is the word of the same frame. -/
  eq_of_prefix : ∀ x y, enc x <+: enc y → x = y

/-- First frames among which is one that comes last only are all of them. -/
theorem eq_of_mem_of_not_mem_dropLast {xs ys : List φ} {x : φ} (h : xs <+: ys) (hx : x ∈ xs)
    (hlast : x ∉ ys.dropLast) : xs = ys := by
  obtain ⟨zs, rfl⟩ := h
  cases zs with
  | nil => rw [List.append_nil]
  | cons z zs =>
      rw [List.dropLast_append_of_ne_nil (by simp)] at hlast
      exact absurd (List.mem_append_left _ hx) hlast

/-- A frame that is there, and comes last only, comes last. -/
theorem eq_snoc_of_mem {xs : List φ} {x : φ} (hx : x ∈ xs) (hlast : x ∉ xs.dropLast) :
    ∃ ys, xs = ys ++ [x] := by
  have hne : xs ≠ [] := List.ne_nil_of_mem hx
  have heq := List.dropLast_append_getLast hne
  refine ⟨xs.dropLast, ?_⟩
  rw [← heq] at hx
  rcases List.mem_append.mp hx with hx | hx
  · exact absurd hx hlast
  · rw [List.mem_singleton.mp hx]
    exact heq.symm

/-- First frames give a first part of the stream. -/
theorem stream_prefix_of_prefix {xs ys : List φ} (h : xs <+: ys) :
    stream enc xs <+: stream enc ys := by
  obtain ⟨zs, rfl⟩ := h
  rw [stream_append]
  exact List.prefix_append _ _

/-- The frames of a first part of a stream that is itself a stream are its first frames. -/
theorem prefix_of_stream (henc : IsPrefixCode enc) {xs ys : List φ}
    (h : stream enc xs <+: stream enc ys) : xs <+: ys := by
  induction xs generalizing ys with
  | nil => exact List.nil_prefix
  | cons x xs ih =>
      cases ys with
      | nil =>
          have hnil := List.prefix_nil.mp h
          rw [stream_cons] at hnil
          exact absurd (List.append_eq_nil_iff.mp hnil).1 (henc.ne_nil x)
      | cons y ys =>
          rw [stream_cons, stream_cons] at h
          have hx : enc x <+: enc y ++ stream enc ys := (List.prefix_append _ _).trans h
          -- Of two words that start one list, one starts the other.
          have hxy : x = y := by
            rcases List.prefix_or_prefix_of_prefix hx (List.prefix_append _ _) with h' | h'
            · exact henc.eq_of_prefix x y h'
            · exact (henc.eq_of_prefix y x h').symm
          subst hxy
          rw [List.prefix_append_right_inj] at h
          exact List.prefix_cons_inj x |>.mpr (ih h)

/-- One stream is a first part of another exactly if its frames are the first frames of it. -/
theorem stream_prefix_iff (henc : IsPrefixCode enc) {xs ys : List φ} :
    stream enc xs <+: stream enc ys ↔ xs <+: ys :=
  ⟨prefix_of_stream henc, stream_prefix_of_prefix⟩

/-- A first part of a stream is some of its first frames and a proper first part of the next. -/
theorem exists_of_prefix_stream {ys : List φ} {l : List α} (h : l <+: stream enc ys) :
    ∃ xs tail, xs <+: ys ∧ l = stream enc xs ++ tail ∧
      (tail = [] ∨ ∃ y, xs ++ [y] <+: ys ∧ tail <+: enc y ∧ tail ≠ enc y) := by
  induction ys generalizing l with
  | nil =>
      rw [stream_nil, List.prefix_nil] at h
      exact ⟨[], [], List.nil_prefix, by simp [h], .inl rfl⟩
  | cons y ys ih =>
      rw [stream_cons] at h
      rcases List.prefix_or_prefix_of_prefix h (List.prefix_append (enc y) _) with hl | hl
      · by_cases heq : l = enc y
        · refine ⟨[y], [], ?_, by simp [heq], .inl rfl⟩
          exact (List.prefix_cons_inj y).mpr List.nil_prefix
        · refine ⟨[], l, List.nil_prefix, by simp, .inr ⟨y, ?_, hl, heq⟩⟩
          exact (List.prefix_cons_inj y).mpr List.nil_prefix
      · obtain ⟨rest, rfl⟩ := hl
        rw [List.prefix_append_right_inj] at h
        obtain ⟨xs, tail, hxs, rfl, htail⟩ := ih h
        refine ⟨y :: xs, tail, (List.prefix_cons_inj y).mpr hxs, by simp, ?_⟩
        rcases htail with rfl | ⟨z, hz, htail⟩
        · exact .inl rfl
        · exact .inr ⟨z, (List.prefix_cons_inj y).mpr hz, htail⟩

end PrefixCode
