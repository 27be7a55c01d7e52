/-
# Prefix codes

A decoder that reads a value from the front of a string and ignores the rest is
the decoder of a prefix code when it reads back every encoding in front of
anything, and returns nothing that was not written that way. It then accepts
exactly the strings that start with an encoding. The value and what is left are
unique, and bytes behind an accepted string change nothing.

A string settles a decoder when no bytes behind it change the result, be it a
value or a failure. Accepted strings settle, and so does every continuation of a
string that settles.

Words of which none is the front of another one can be told apart on a stream. Two
readers that each cut words off the front of one stream cut off the same words, the
one perhaps more of them than the other.
-/

import Mathlib.Data.List.Basic
import Mathlib.Data.List.Infix
import Mathlib.Data.Set.Basic

variable {σ ε γ : Type*}

/-- No symbols behind the string change what the decoder makes of it. -/
def Settles (decode : List σ → Except ε γ) (data : List σ) : Prop :=
  ∀ rest, decode (data ++ rest) = decode data

/-- A decoder settled on a string is settled on every continuation of it. -/
theorem Settles.append {decode : List σ → Except ε γ} {data : List σ}
    (settled : Settles decode data) (rest : List σ) : Settles decode (data ++ rest) := by
  intro more
  rw [List.append_assoc, settled, settled]

/-- The decoder reads exactly the encodings of the allowed values, each in front
of anything. -/
structure PrefixCode (allowed : γ → Prop) (encode : γ → List σ)
    (decode : List σ → Except ε γ) : Prop where
  /-- An encoding is read back, whatever follows it. -/
  reads : ∀ {value}, allowed value → ∀ rest, decode (encode value ++ rest) = .ok value
  /-- What is read was written. -/
  written : ∀ {data value}, decode data = .ok value →
    allowed value ∧ ∃ rest, data = encode value ++ rest

namespace PrefixCode

variable {allowed : γ → Prop} {encode : γ → List σ} {decode : List σ → Except ε γ}
  (code : PrefixCode allowed encode decode)

include code

theorem eq_ok_iff {data : List σ} {value : γ} :
    decode data = .ok value ↔ allowed value ∧ ∃ rest, data = encode value ++ rest := by
  constructor
  · exact code.written
  · rintro ⟨fits, rest, rfl⟩
    exact code.reads fits rest

/-- The decoder accepts exactly the strings that start with an encoding. -/
theorem accepts_iff {data : List σ} :
    (∃ value, decode data = .ok value) ↔
      ∃ value rest, allowed value ∧ data = encode value ++ rest := by
  simp only [code.eq_ok_iff, exists_and_left]

/-- A string starts with one encoding at most. -/
theorem unique {value value' : γ} {rest rest' : List σ} (fits : allowed value)
    (fits' : allowed value') (same : encode value ++ rest = encode value' ++ rest') :
    value = value' ∧ rest = rest' := by
  have read := code.reads fits rest
  rw [same, code.reads fits' rest'] at read
  obtain rfl := Except.ok.inj read
  exact ⟨rfl, List.append_cancel_left same⟩

/-- A front of an encoding is not accepted. -/
theorem rejects_part (value : γ) {value' : γ} {part rest : List σ} (fits : allowed value)
    (split : encode value = part ++ rest) (nonempty : rest ≠ []) : decode part ≠ .ok value' := by
  intro accepted
  obtain ⟨fits', more, rfl⟩ := code.written accepted
  have same : encode value ++ [] = encode value' ++ (more ++ rest) := by
    rw [List.append_nil, split, List.append_assoc]
  obtain ⟨-, nothing⟩ := code.unique fits fits' same
  exact nonempty (List.append_eq_nil_iff.mp nothing.symm).2

/-- An accepted string settles the decoder. -/
theorem settles {data : List σ} {value : γ} (accepted : decode data = .ok value) :
    Settles decode data := by
  intro more
  obtain ⟨fits, rest, rfl⟩ := code.written accepted
  rw [List.append_assoc, code.reads fits, code.reads fits]

end PrefixCode

/-! ### Words on a stream -/

/-- No word of the code is the front of another one. -/
def PrefixFree (code : Set (List σ)) : Prop :=
  ∀ word ∈ code, ∀ word' ∈ code, word <+: word' → word = word'

namespace PrefixFree

variable {code : Set (List σ)} (free : PrefixFree code)

include free

/-- A stream begins with one word at most. -/
theorem eq_of_isPrefix {word word' stream : List σ} (coded : word ∈ code)
    (coded' : word' ∈ code) (front : word <+: stream) (front' : word' <+: stream) :
    word = word' := by
  rcases List.prefix_or_prefix_of_prefix front front' with shorter | longer
  · exact free word coded word' coded' shorter
  · exact (free word' coded' word coded longer).symm

/-- Of two lists of words at the front of a stream, one is the front of the other. -/
theorem isPrefix_or_isPrefix {words words' : List (List σ)} {stream : List σ}
    (coded : ∀ word ∈ words, word ∈ code) (coded' : ∀ word ∈ words', word ∈ code)
    (front : words.flatten <+: stream) (front' : words'.flatten <+: stream) :
    words <+: words' ∨ words' <+: words := by
  induction words generalizing words' stream with
  | nil => exact Or.inl List.nil_prefix
  | cons word words ih =>
    cases words' with
    | nil => exact Or.inr List.nil_prefix
    | cons word' words' =>
      rw [List.flatten_cons] at front front'
      rw [List.forall_mem_cons] at coded coded'
      -- The first words are the same, and the others are read from behind them.
      obtain rfl := free.eq_of_isPrefix coded.1 coded'.1
        ((List.prefix_append word _).trans front) ((List.prefix_append word' _).trans front')
      obtain ⟨rest, rfl⟩ := front
      rw [List.append_assoc, List.prefix_append_right_inj] at front'
      rcases ih coded.2 coded'.2 (List.prefix_append _ rest) front' with shorter | longer
      · exact Or.inl ((List.prefix_cons_inj word).mpr shorter)
      · exact Or.inr ((List.prefix_cons_inj word).mpr longer)

/-- Where words are followed by a part in which no word has come in whole, no other
words can be read. -/
theorem isPrefix_of_part {words words' : List (List σ)} {part : List σ}
    (coded : ∀ word ∈ words, word ∈ code) (coded' : ∀ word ∈ words', word ∈ code)
    (short : ∀ word ∈ code, ¬ word <+: part) (front : words'.flatten <+: words.flatten ++ part) :
    words' <+: words := by
  rcases free.isPrefix_or_isPrefix coded coded' (List.prefix_append _ part) front with
    longer | shorter
  · obtain ⟨more, rfl⟩ := longer
    cases more with
    | nil => rw [List.append_nil]
    | cons word more =>
      -- The first word beyond the others would be the front of the part.
      rw [List.flatten_append, List.prefix_append_right_inj, List.flatten_cons] at front
      exact absurd ((List.prefix_append word _).trans front)
        (short word (coded' word (List.mem_append_right words List.mem_cons_self)))
  · exact shorter

end PrefixFree
