import Railroad.Source.LiteralValue
import Railroad.Text.Quoted

/-!
# Reading quoted text

A quoted text is a text literal: the reader of literals finds where it ends and gives back the text
that was quoted. So two quoted texts are told apart wherever they stand.

* `unescape_escape`, `quotedLength_escape`: the written form of one character is read as this
  character, and does not end the text.
* `value?_quote`: a quoted text is a literal that stands for the text.
* `quote_append_inj`: a quoted text can be told from what comes after it.
-/

namespace Railroad.Text

open Literal (unescape hexDigit?)
open Source (quotedLength)

/-! ## Numbers of characters -/

theorem hexDigit?_digitChar {d : Nat} (h : d < 16) : hexDigit? (Nat.digitChar d) = some d := by
  revert d
  decide

theorem digitChar_ne {d : Nat} (h : d < 16) :
    Nat.digitChar d ≠ '\x7d' ∧ Nat.digitChar d ≠ '_' ∧ Nat.digitChar d ≠ '\\' ∧
      Nat.digitChar d ≠ '"' := by
  revert d
  decide

theorem unescape_digitChar {d : Nat} (h : d < 16) (n : Nat) (cs : List Char) :
    unescape (.number n) (Nat.digitChar d :: cs) = unescape (.number (16 * n + d)) cs := by
  obtain ⟨hbrace, hline, -, -⟩ := digitChar_ne h
  rw [unescape, hexDigit?_digitChar h, Option.bind_some]
  · exact hbrace
  · exact hline

theorem hexDigits_eq (n : Nat) :
    hexDigits n = (if n < 16 then [] else hexDigits (n / 16)) ++ [Nat.digitChar (n % 16)] := by
  unfold hexDigits
  split
  · next h => rw [Nat.toDigits_of_lt_base h, Nat.mod_eq_of_lt h, List.nil_append]
  · next h => rw [Nat.toDigits_of_base_le (by decide) (by omega)]

/-- The digits of a number are read as the number. -/
theorem unescape_hexDigits (n : Nat) (cs : List Char) :
    unescape (.number 0) (hexDigits n ++ cs) = unescape (.number n) cs := by
  induction n using Nat.strongRecOn generalizing cs with
  | ind n ih =>
    have hlast : n % 16 < 16 := Nat.mod_lt n (by decide)
    rw [hexDigits_eq, List.append_assoc, List.singleton_append]
    split
    · next h =>
      rw [List.nil_append, unescape_digitChar hlast]
      congr 2
      omega
    · next h =>
      rw [ih (n / 16) (by omega), unescape_digitChar hlast]
      congr 2
      omega

/-! ## Characters -/

/-- A character is written with a mark of its own after a backslash, or by its number, or as it
is. -/
theorem escape_forms (c : Char) :
    (∃ mark, escape c = ['\\', mark] ∧
      ∀ cs, unescape .plain ('\\' :: mark :: cs) = (unescape .plain cs).map (c :: ·)) ∨
    escape c = '\\' :: 'u' :: '\x7b' :: (hexDigits c.toNat ++ ['\x7d']) ∨
    (escape c = [c] ∧ c ≠ '\\' ∧ c ≠ '"') := by
  unfold escape
  split
  · next h => exact .inl ⟨'"', rfl, fun cs => by simp [unescape, h]⟩
  split
  · next h => exact .inl ⟨'\\', rfl, fun cs => by simp [unescape, h]⟩
  split
  · next h => exact .inl ⟨'n', rfl, fun cs => by simp [unescape, h]⟩
  split
  · next h => exact .inl ⟨'r', rfl, fun cs => by simp [unescape, h]⟩
  split
  · next h => exact .inl ⟨'t', rfl, fun cs => by simp [unescape, h]⟩
  split
  · next h => exact .inl ⟨'0', rfl, fun cs => by simp [unescape, h]⟩
  split
  · exact .inr (.inl rfl)
  · next hquote hslash _ _ _ _ _ => exact .inr (.inr ⟨rfl, hslash, hquote⟩)

/-- **The written form of a character is read as this character.** -/
theorem unescape_escape (c : Char) (cs : List Char) :
    unescape .plain (escape c ++ cs) = (unescape .plain cs).map (c :: ·) := by
  rcases escape_forms c with ⟨mark, hform, hmark⟩ | hform | ⟨hform, hslash, -⟩
  · rw [hform]
    exact hmark cs
  · have hclose : unescape (.number c.toNat) ('\x7d' :: cs) =
        (unescape .plain cs).map (c :: ·) := by
      rw [unescape, Char.ofNat_toNat]
    have hopen (inside : List Char) :
        unescape .plain ('\\' :: 'u' :: '\x7b' :: inside) = unescape (.number 0) inside := by
      simp [unescape]
    simp only [hform, List.cons_append, List.append_assoc, List.nil_append]
    rw [hopen, unescape_hexDigits, hclose]
  · rw [hform, List.singleton_append, unescape]
    all_goals simp [hslash]

theorem unescape_flatMap (cs : List Char) : unescape .plain (cs.flatMap escape) = some cs := by
  induction cs with
  | nil => simp [unescape]
  | cons c rest ih => rw [List.flatMap_cons, unescape_escape, ih, Option.map_some]

/-! ## Where a quoted text ends -/

theorem quotedLength_append {plain : List Char} (h : ∀ c ∈ plain, c ≠ '\\' ∧ c ≠ '"')
    (cs : List Char) :
    quotedLength '"' (plain ++ cs) = (quotedLength '"' cs).map (· + plain.length) := by
  induction plain with
  | nil => simp
  | cons c rest ih =>
    obtain ⟨hslash, hquote⟩ := h c List.mem_cons_self
    rw [List.cons_append, quotedLength, if_neg hquote,
      ih fun d hd => h d (List.mem_cons_of_mem c hd), Option.map_map]
    · congr 1
    · intro _ _ heq
      exact absurd heq hslash

theorem plain_hexDigits {n : Nat} : ∀ c ∈ hexDigits n, c ≠ '\\' ∧ c ≠ '"' := by
  induction n using Nat.strongRecOn with
  | ind n ih =>
    have hlast := digitChar_ne (Nat.mod_lt n (by decide : 16 > 0))
    intro c hc
    rw [hexDigits_eq, List.mem_append, List.mem_singleton] at hc
    rcases hc with hc | rfl
    · split at hc
      · exact absurd hc List.not_mem_nil
      · exact ih (n / 16) (by omega) c hc
    · exact ⟨hlast.2.2.1, hlast.2.2.2⟩

/-- **The written form of a character does not end the text.** -/
theorem quotedLength_escape (c : Char) (cs : List Char) :
    quotedLength '"' (escape c ++ cs) = (quotedLength '"' cs).map (· + (escape c).length) := by
  rcases escape_forms c with ⟨mark, hform, -⟩ | hform | ⟨hform, hslash, hquote⟩
  · rw [hform]
    simp [quotedLength]
  · have hplain : ∀ d ∈ '\x7b' :: (hexDigits c.toNat ++ ['\x7d']), d ≠ '\\' ∧ d ≠ '"' := by
      intro d hd
      rcases List.mem_cons.mp hd with rfl | hd
      · decide
      rcases List.mem_append.mp hd with hd | hd
      · exact plain_hexDigits d hd
      · rw [List.mem_singleton.mp hd]
        decide
    have hmarks (inside : List Char) : quotedLength '"' ('\\' :: 'u' :: inside) =
        (quotedLength '"' inside).map (· + 2) := by
      rw [quotedLength]
    rw [hform, List.cons_append, List.cons_append, hmarks, quotedLength_append hplain,
      Option.map_map]
    rfl
  · rw [hform]
    exact quotedLength_append (by simp [hslash, hquote]) cs

theorem quotedLength_flatMap (inside rest : List Char) :
    quotedLength '"' (inside.flatMap escape ++ '"' :: rest) =
      some ((inside.flatMap escape).length + 1) := by
  induction inside with
  | nil => rfl
  | cons c cs ih =>
    rw [List.flatMap_cons, List.append_assoc, quotedLength_escape, ih, Option.map_some,
      List.length_append, Nat.add_right_comm, Nat.add_comm (cs.flatMap escape).length]

/-! ## Quoted texts -/

/-- **A quoted text is a literal** that stands for the text. -/
theorem value?_quote (s : String) : Literal.value? ⟨.text, quote s⟩ = some s := by
  have hlength := quotedLength_flatMap s.toList []
  have hinside : (quote s).toList.drop 1 = s.toList.flatMap escape ++ ['"'] := by
    rw [toList_quote]
    rfl
  simp only [Literal.value?, hinside, hlength, Option.bind_eq_bind, Option.bind_some,
    Nat.add_sub_cancel, List.take_left, unescape_flatMap, List.length_append,
    List.length_singleton, if_true, String.ofList_toList, Option.pure_def]

/-- **A quoted text can be told from what comes after it.** -/
theorem quote_append_inj {s t : String} {cs ds : List Char}
    (h : (quote s).toList ++ cs = (quote t).toList ++ ds) : s = t ∧ cs = ds := by
  have hinside : s.toList.flatMap escape ++ '"' :: cs = t.toList.flatMap escape ++ '"' :: ds := by
    simpa using h
  have hlength : (quote s).toList.length = (quote t).toList.length := by
    have := congrArg (quotedLength '"') hinside
    rw [quotedLength_flatMap, quotedLength_flatMap, Option.some.injEq] at this
    simp only [toList_quote, List.length_append, List.length_cons]
    omega
  obtain ⟨hquotes, hrest⟩ := List.append_inj h hlength
  have hvalue := congrArg (fun q => Literal.value? ⟨.text, q⟩) (String.toList_inj.mp hquotes)
  simp only [value?_quote, Option.some.injEq] at hvalue
  exact ⟨hvalue, hrest⟩

end Railroad.Text
