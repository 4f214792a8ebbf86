import Mathlib.Data.List.TakeWhile
import StarkCalldata.Proofs.Text.Hex
import StarkCalldata.Json.Token
import StarkCalldata.Json.Writer

/-!
Tokens of text that has been written.

A text is read token by token, and what has been written comes back from its beginning with the text
after it:

* `after?_eq_some`: what stands after a given beginning;
* `nextToken_of_isSpace`: blanks in front of a token are skipped;
* `nextToken_openBracket`, `nextToken_null` and their like: marks and words;
* `codeUnits`: a character as the code units that an escape stands for;
* `scanString?_escapedChar`, `joinSurrogates_codeUnits`: a character in a string is read as its code
  units, and these are the character again;
* `nextToken_escaped`: a string is read as it was written.
-/

namespace StarkCalldata.Json

open Text

variable {text rest : List Char}

/-! ### Beginnings -/

/-- What stands after a beginning is the rest of a text that starts with it. -/
lemma after?_eq_some {start : List Char} :
    after? start text = some rest ↔ text = start ++ rest := by
  induction start generalizing text with
  | nil => simp [after?, eq_comm]
  | cons c start ih =>
      cases text with
      | nil => simp [after?]
      | cons c' text =>
          rw [after?]
          split_ifs with hc
          · rw [ih, hc, List.cons_append, List.cons.injEq]
            simp
          · simp [Ne.symm hc]

@[simp] lemma after?_append (start rest : List Char) : after? start (start ++ rest) = some rest :=
  after?_eq_some.mpr rfl

/-! ### Marks and words -/

/-- Blanks in front of a token are skipped. -/
lemma nextToken_of_isSpace {blanks : List Char} (h : ∀ c ∈ blanks, isSpace c = true)
    (text : List Char) : nextToken (blanks ++ text) = nextToken text := by
  rw [nextToken, nextToken, List.dropWhile_append_of_pos h]

lemma nextToken_newline (level : ℕ) (text : List Char) :
    nextToken (newline level ++ text) = nextToken text := by
  refine nextToken_of_isSpace (fun c hc => ?_) text
  rcases List.mem_cons.mp hc with rfl | hc
  · rfl
  · rw [List.eq_of_mem_replicate hc]
    rfl

@[simp] lemma nextToken_openBrace : nextToken ('\x7b' :: rest) = (.openBrace, rest) := rfl

@[simp] lemma nextToken_closeBrace : nextToken ('\x7d' :: rest) = (.closeBrace, rest) := rfl

@[simp] lemma nextToken_openBracket : nextToken ('[' :: rest) = (.openBracket, rest) := rfl

@[simp] lemma nextToken_closeBracket : nextToken (']' :: rest) = (.closeBracket, rest) := rfl

@[simp] lemma nextToken_comma : nextToken (',' :: rest) = (.comma, rest) := rfl

@[simp] lemma nextToken_colon : nextToken (':' :: rest) = (.colon, rest) := rfl

/-- The word for null. -/
@[simp] lemma nextToken_null :
    nextToken ('n' :: 'u' :: 'l' :: 'l' :: rest) = (.scalar .null, rest) := rfl

/-! ### Strings -/

/-- The code units of a character: one, or a pair of surrogates. -/
def codeUnits (c : Char) : List ℕ :=
  if c.toNat < 0x10000 then [c.toNat]
  else [0xD800 + (c.toNat - 0x10000) / 0x400, 0xDC00 + (c.toNat - 0x10000) % 0x400]

/-- A code unit comes back from its escape. -/
lemma scanString?_unitEscape {u : ℕ} (hu : u < 0x10000) (done : List ℕ) (rest : List Char) :
    scanString? done (unitEscape u ++ rest) = scanString? (u :: done) rest := by
  have hdigits : hexPadded 4 u = [Nat.digitChar (u / 16 / 16 / 16),
      Nat.digitChar (u / 16 / 16 % 16), Nat.digitChar (u / 16 % 16), Nat.digitChar (u % 16)] := by
    rw [hexPadded_succ (by norm_num), hexPadded_succ (by norm_num), hexPadded_succ (by norm_num),
      hexPadded_one (by omega)]
    rfl
  have hvalue : ofDigits 16 [u / 16 / 16 / 16, u / 16 / 16 % 16, u / 16 % 16, u % 16] = u := by
    simp only [ofDigits, List.foldl_cons, List.foldl_nil]
    omega
  rw [unitEscape, hdigits]
  simp only [List.cons_append, List.nil_append, scanString?, Option.bind_eq_bind]
  rw [hexDigit?_digitChar (by omega), hexDigit?_digitChar (by omega),
    hexDigit?_digitChar (by omega), hexDigit?_digitChar (by omega)]
  simp only [Option.bind_some, hvalue]

lemma scanString?_cons {c : Char} (hquote : c ≠ '\x22') (hbackslash : c ≠ '\x5c')
    (hblank : 0x20 ≤ c.toNat) (done : List ℕ) (rest : List Char) :
    scanString? done (c :: rest) = scanString? (c.toNat :: done) rest := by
  have hnot : ¬ (c.toNat < 0x20 ∨ c = '\x5c') := not_or.mpr ⟨Nat.not_lt.mpr hblank, hbackslash⟩
  rw [scanString?, if_neg hnot]
  · exact hquote
  · exact fun _ _ _ _ _ h _ => hbackslash h
  · exact fun _ _ h _ => hbackslash h

/-- A character comes back from its escape as its code units. -/
lemma scanString?_escapedChar (c : Char) (done : List ℕ) (rest : List Char) :
    scanString? done (escapedChar c ++ rest) =
      scanString? ((codeUnits c).reverse ++ done) rest := by
  by_cases hquote : c = '\x22'
  · subst hquote
    rfl
  by_cases hbackslash : c = '\x5c'
  · subst hbackslash
    rfl
  by_cases hnewline : c = '\n'
  · subst hnewline
    rfl
  by_cases hreturn : c = '\r'
  · subst hreturn
    rfl
  by_cases htab : c = '\t'
  · subst htab
    rfl
  by_cases hfeed : c = '\x0c'
  · subst hfeed
    rfl
  by_cases hback : c = '\x08'
  · subst hback
    rfl
  rw [escapedChar, if_neg hquote, if_neg hbackslash, if_neg hnewline, if_neg hreturn, if_neg htab,
    if_neg hfeed, if_neg hback]
  split_ifs with hprintable hplane
  · have hunit : codeUnits c = [c.toNat] := if_pos (by omega)
    rw [hunit]
    exact scanString?_cons hquote hbackslash hprintable.1 done rest
  · rw [scanString?_unitEscape hplane, codeUnits, if_pos hplane]
    rfl
  · have hvalid : c.toNat < 0x110000 := by
      rcases c.valid with h | h
      · exact h.trans (by norm_num)
      · exact h.2
    rw [List.append_assoc, scanString?_unitEscape (by omega), scanString?_unitEscape (by omega),
      codeUnits, if_neg hplane]
    rfl

lemma scanString?_flatMap (text : List Char) (done : List ℕ) (rest : List Char) :
    scanString? done (text.flatMap escapedChar ++ '\x22' :: rest) =
      some (done.reverse ++ text.flatMap codeUnits, rest) := by
  induction text generalizing done with
  | nil => simp [scanString?]
  | cons c text ih =>
      rw [List.flatMap_cons, List.append_assoc, scanString?_escapedChar, ih, List.flatMap_cons]
      simp

/-- Code units are joined to the characters that they came from. -/
lemma joinSurrogates_codeUnits (text : List Char) :
    joinSurrogates (text.flatMap codeUnits) = some text := by
  induction text with
  | nil => rfl
  | cons c text ih =>
      have hc : Char.ofNat c.toNat = c := Char.ofNat_toNat c
      have hvalid : c.toNat < 0xD800 ∨ 0xDFFF < c.toNat ∧ c.toNat < 0x110000 := c.valid
      rw [List.flatMap_cons, codeUnits]
      split_ifs with hplane
      · have halone : ¬ (0xD800 ≤ c.toNat ∧ c.toNat < 0xE000) := by omega
        have hhigh (v : ℕ) :
            ¬ (0xD800 ≤ c.toNat ∧ c.toNat < 0xDC00 ∧ 0xDC00 ≤ v ∧ v < 0xE000) := by omega
        cases hunits : text.flatMap codeUnits with
        | nil =>
            have htext : text = [] := by
              rw [hunits] at ih
              exact (Option.some.inj ih).symm
            rw [htext, List.append_nil, joinSurrogates, if_neg halone, hc]
        | cons v units =>
            rw [hunits] at ih
            rw [List.singleton_append, joinSurrogates, if_neg (hhigh v), if_neg halone, ih,
              Option.map_some, hc]
      · have hpair : 0xD800 ≤ 0xD800 + (c.toNat - 0x10000) / 0x400 ∧
            0xD800 + (c.toNat - 0x10000) / 0x400 < 0xDC00 ∧
            0xDC00 ≤ 0xDC00 + (c.toNat - 0x10000) % 0x400 ∧
            0xDC00 + (c.toNat - 0x10000) % 0x400 < 0xE000 := by omega
        have hjoined : 0x10000 + (0xD800 + (c.toNat - 0x10000) / 0x400 - 0xD800) * 0x400 +
            (0xDC00 + (c.toNat - 0x10000) % 0x400 - 0xDC00) = c.toNat := by omega
        rw [List.cons_append, List.singleton_append, joinSurrogates, if_pos hpair, ih,
          Option.map_some, hjoined, hc]

lemma nextToken_quote {units : List ℕ} {found : List Char}
    (hscan : scanString? [] text = some (units, rest)) (hjoin : joinSurrogates units = some found) :
    nextToken ('\x22' :: text) = (.text (String.ofList found), rest) := by
  have htext : scanText? text = some (.text (String.ofList found), rest) := by
    rw [scanText?, hscan, Option.bind_eq_bind, Option.bind_some]
    simp only [hjoin, Option.bind_eq_bind, Option.bind_some]
    rfl
  rw [nextToken, List.dropWhile_cons_of_neg (by decide), tokenAt]
  simp only [Char.reduceEq, if_false, if_true, htext]

/-- **A string is read as it was written.** -/
@[simp] theorem nextToken_escaped (s : String) (rest : List Char) :
    nextToken (escaped s ++ rest) = (.text s, rest) := by
  have hscan : scanString? [] (s.toList.flatMap escapedChar ++ '\x22' :: rest) =
      some (s.toList.flatMap codeUnits, rest) := scanString?_flatMap s.toList [] rest
  have htext : escaped s ++ rest = '\x22' :: (s.toList.flatMap escapedChar ++ '\x22' :: rest) := by
    rw [escaped, List.cons_append, List.cons_append, List.append_assoc]
    rfl
  rw [htext, nextToken_quote hscan (joinSurrogates_codeUnits _), String.ofList_toList]

end StarkCalldata.Json
