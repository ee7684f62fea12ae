import Mathlib.Data.Option.Basic
import DocStore.Proofs.Json.Numeral

/-!
# Scanning printed JSON

The text of a JSON value is scanned into the tokens of the value, but for its numbers, which are
read from their texts: `scan_render`.
-/

set_option autoImplicit false

namespace DocStore.Json

/-! ## Tokens -/

/-- The JSON value that the text of a number reads back as, if any. -/
def Number.reread? : Number → Option Json
  | .integer n => (Numeral.read? (toString n).toList).map number
  | .double f =>
    if Binary64.isFinite f then
      (Numeral.read? (Decimal.Layout.json.format f).toList).map number
    else some null

mutual

/-- The value with its numbers read back from their texts. -/
def reread? : Json → Option Json
  | null => some null
  | bool b => some (bool b)
  | number n => n.reread?
  | string s => some (string s)
  | array items => (rereadItems? items).map array
  | object fields => (rereadFields? fields).map object

/-- The items of an array with their numbers read back. -/
def rereadItems? : List Json → Option (List Json)
  | [] => some []
  | v :: rest => (reread? v).bind fun w => (rereadItems? rest).map (w :: ·)

/-- The fields of an object with their numbers read back. -/
def rereadFields? : List (String × Json) → Option (List (String × Json))
  | [] => some []
  | (k, v) :: rest => (reread? v).bind fun w => (rereadFields? rest).map ((k, w) :: ·)

end

theorem rereadItems?_cons {v : Json} {rest read : List Json} :
    rereadItems? (v :: rest) = some read ↔ ∃ w more, v.reread? = some w ∧
      rereadItems? rest = some more ∧ w :: more = read := by
  simp [rereadItems?, Option.bind_eq_some_iff]

theorem rereadFields?_cons {k : String} {v : Json} {rest read : List (String × Json)} :
    rereadFields? ((k, v) :: rest) = some read ↔ ∃ w more, v.reread? = some w ∧
      rereadFields? rest = some more ∧ (k, w) :: more = read := by
  simp [rereadFields?, Option.bind_eq_some_iff]

mutual

/-- The tokens of a value. -/
def tokens : Json → List Token
  | null => [.null]
  | bool b => [.bool b]
  | number n => [.number n]
  | string s => [.string s]
  | array items => .openArray :: tokensOfItems items ++ [.closeArray]
  | object fields => .openObject :: tokensOfFields fields ++ [.closeObject]

/-- The tokens of the items of an array. -/
def tokensOfItems : List Json → List Token
  | [] => []
  | [v] => tokens v
  | v :: rest => tokens v ++ .comma :: tokensOfItems rest

/-- The tokens of the fields of an object. -/
def tokensOfFields : List (String × Json) → List Token
  | [] => []
  | [(k, v)] => .string k :: .colon :: tokens v
  | (k, v) :: rest => .string k :: .colon :: tokens v ++ .comma :: tokensOfFields rest

end

namespace Token

/-! ## The next character -/

theorem scanFrom_nil (mode : Mode) : scanFrom mode [] = mode.finish? := by
  cases mode <;> rfl

/-- Between tokens the next character decides the mode. -/
theorem scanFrom_between (c : Char) (cs : List Char) :
    scanFrom .between (c :: cs) =
      (start? c).bind fun started => (scanFrom started.2 cs).map (started.1 ++ ·) := by
  simp only [Option.map_eq_bind]
  rfl

/-- A numeral takes every character that it can. -/
theorem scanFrom_numeral_cons {c : Char} (h : isNumeric c = true) (seen cs : List Char) :
    scanFrom (.numeral seen) (c :: cs) = scanFrom (.numeral (c :: seen)) cs :=
  if_pos h

/-- A word takes every character that it can. -/
theorem scanFrom_word_cons {c : Char} (h : c.isAlphanum = true) (seen cs : List Char) :
    scanFrom (.word seen) (c :: cs) = scanFrom (.word (c :: seen)) cs :=
  if_pos h

/-- A quoted text ends at the next quotation mark. -/
theorem scanFrom_quoted_quote (seen cs : List Char) :
    scanFrom (.quoted seen) ('"' :: cs) =
      (scanFrom .between cs).map (string (String.ofList seen.reverse) :: ·) := by
  rw [Option.map_eq_bind]
  rfl

/-! ## Quoted texts -/

theorem hexQuad?_hexDigit :
    ∀ n < 32, hexQuad? '0' '0' (hexDigit (n / 16)) (hexDigit (n % 16)) = some n := by
  decide

/-- An escaped character is read as the character. -/
theorem scanFrom_escapeChar (seen : List Char) (c : Char) (rest : List Char) :
    scanFrom (.quoted seen) (escapeChar c ++ rest) = scanFrom (.quoted (c :: seen)) rest := by
  unfold escapeChar
  split
  case h_8 hquote hslash _ _ _ _ _ =>
    split
    · rename_i hlow
      have hleading : isLeading c.toNat = false := by simp [isLeading]; omega
      have htrailing : isTrailing c.toNat = false := by simp [isTrailing]; omega
      simp [scanFrom, hexQuad?_hexDigit c.toNat hlow, hleading, htrailing]
    · rename_i hlow
      rw [List.singleton_append, scanFrom, if_neg hlow]
      · exact fun h => hquote h
      · intro _ _ _ _ _ h
        exact absurd h hslash
      · intro _ _ h
        exact absurd h hslash
  all_goals
    simp [scanFrom, simpleEscape?]

/-- A quoted text is read as the text. -/
theorem scanFrom_quote (s : String) (rest : List Char) :
    scanFrom .between ((quote s).toList ++ rest) =
      (scanFrom .between rest).map (string s :: ·) := by
  -- The characters so far are kept in reverse.
  have hbody : ∀ cs seen, scanFrom (.quoted seen) (cs.flatMap escapeChar ++ '"' :: rest) =
      (scanFrom .between rest).map (string (String.ofList (seen.reverse ++ cs)) :: ·) := by
    intro cs
    induction cs with
    | nil =>
        intro seen
        simp [scanFrom_quoted_quote]
    | cons c cs ih =>
        intro seen
        rw [List.flatMap_cons, List.append_assoc, scanFrom_escapeChar, ih]
        simp
  have hstart : scanFrom .between ('"' :: (s.toList.flatMap escapeChar ++ '"' :: rest)) =
      scanFrom (.quoted []) (s.toList.flatMap escapeChar ++ '"' :: rest) := by
    simp [scanFrom_between, start?, isBlank]
  simp only [quote, String.toList_ofList, List.append_assoc, List.cons_append, List.nil_append]
  rw [hstart, hbody]
  simp

/-! ## Words and numerals -/

/-- Nothing, or something that starts with no letter, digit or character of numerals. -/
def Delimited (rest : List Char) : Prop :=
  ∀ c cs, rest = c :: cs → isNumeric c = false ∧ c.isAlphanum = false

/-- Tokens that end before a character come before those that start there. -/
theorem scanFrom_ended (ended : Option (List Token)) (c : Char) (cs : List Char) :
    (do
      let ended ← ended
      let (now, mode) ← start? c
      return ended ++ now ++ (← scanFrom mode cs)) =
      ended.bind fun ts => (scanFrom .between (c :: cs)).map (ts ++ ·) := by
  cases ended with
  | none => rfl
  | some ts =>
      rw [scanFrom_between]
      cases start? c with
      | none => rfl
      | some started =>
          obtain ⟨now, mode⟩ := started
          cases hrest : scanFrom mode cs <;> simp [hrest]

/-- A numeral ends before a delimiter. -/
theorem scanFrom_numeral {rest : List Char} (h : Delimited rest) {cs : List Char}
    (hcs : ∀ c ∈ cs, isNumeric c = true) (seen : List Char) :
    scanFrom (.numeral seen) (cs ++ rest) = (Numeral.read? (seen.reverse ++ cs)).bind fun n =>
      (scanFrom .between rest).map (number n :: ·) := by
  induction cs generalizing seen with
  | nil =>
      rw [List.nil_append]
      cases rest with
      | nil => simp [scanFrom_nil, Mode.finish?, Option.map_eq_bind]
      | cons c rest =>
          obtain ⟨hc, -⟩ := h c rest rfl
          refine Eq.trans ?_ ((scanFrom_ended (Mode.finish? (.numeral seen)) c rest).trans ?_)
          · exact if_neg (by simp [hc])
          · simp [Mode.finish?, Option.bind_map]
  | cons c cs ih =>
      rw [List.cons_append, scanFrom_numeral_cons (hcs c List.mem_cons_self),
        ih fun d hd => hcs d (List.mem_cons_of_mem _ hd)]
      simp

/-- A word ends before a delimiter. -/
theorem scanFrom_word {rest : List Char} (h : Delimited rest) {cs : List Char}
    (hcs : ∀ c ∈ cs, c.isAlphanum = true) (seen : List Char) :
    scanFrom (.word seen) (cs ++ rest) = (word? (seen.reverse ++ cs)).bind fun t =>
      (scanFrom .between rest).map (t :: ·) := by
  induction cs generalizing seen with
  | nil =>
      rw [List.nil_append]
      cases rest with
      | nil => simp [scanFrom_nil, Mode.finish?, Option.map_eq_bind]
      | cons c rest =>
          obtain ⟨-, hc⟩ := h c rest rfl
          refine Eq.trans ?_ ((scanFrom_ended (Mode.finish? (.word seen)) c rest).trans ?_)
          · exact if_neg (by simp [hc])
          · simp [Mode.finish?, Option.bind_map]
  | cons c cs ih =>
      rw [List.cons_append, scanFrom_word_cons (hcs c List.mem_cons_self),
        ih fun d hd => hcs d (List.mem_cons_of_mem _ hd)]
      simp

/-- A letter starts a word. -/
theorem scanFrom_letter (c : Char) (cs : List Char) {t : Token}
    (hstart : start? c = some ([], .word [c])) (hcs : cs.all Char.isAlphanum = true)
    (hword : word? (c :: cs) = some t) {rest : List Char} (h : Delimited rest) :
    scanFrom .between (c :: cs ++ rest) = (scanFrom .between rest).map (t :: ·) := by
  rw [List.cons_append, scanFrom_between, hstart]
  have hscan := scanFrom_word h (List.all_eq_true.1 hcs) [c]
  rw [List.reverse_singleton, List.singleton_append, hword] at hscan
  simp [hscan, Function.comp_def]

theorem scanFrom_null {rest : List Char} (h : Delimited rest) :
    scanFrom .between ("null".toList ++ rest) = (scanFrom .between rest).map (null :: ·) :=
  scanFrom_letter 'n' ['u', 'l', 'l'] rfl rfl rfl h

theorem scanFrom_bool {rest : List Char} (h : Delimited rest) (b : Bool) :
    scanFrom .between ((if b then "true" else "false").toList ++ rest) =
      (scanFrom .between rest).map (bool b :: ·) := by
  cases b with
  | true => exact scanFrom_letter 't' ['r', 'u', 'e'] rfl rfl rfl h
  | false => exact scanFrom_letter 'f' ['a', 'l', 's', 'e'] rfl rfl rfl h

/-- A digit or a sign starts a numeral. -/
theorem scanFrom_digit {c : Char} (hc : c = '-' ∨ c.isDigit = true) {cs : List Char}
    (hcs : ∀ c ∈ cs, isNumeric c = true) {rest : List Char} (h : Delimited rest) :
    scanFrom .between (c :: cs ++ rest) = (Numeral.read? (c :: cs)).bind fun n =>
      (scanFrom .between rest).map (number n :: ·) := by
  have hstart : start? c = some ([], .numeral [c]) := by
    rcases hc with rfl | hc
    · rfl
    · have hne : ∀ d : Char, d.isDigit = false → c ≠ d := by
        rintro d hd rfl
        rw [hc] at hd
        cases hd
      simp [start?, isBlank, isNumeric, hc, hne]
  rw [List.cons_append, scanFrom_between, hstart]
  have hscan := scanFrom_numeral h hcs [c]
  simp [hscan]

/-! ## Values -/

theorem scanFrom_punctuation {c : Char} {t : Token} (h : start? c = some ([t], .between))
    (rest : List Char) :
    scanFrom .between (c :: rest) = (scanFrom .between rest).map (t :: ·) := by
  simp [scanFrom_between, h]

theorem delimited_cons {c : Char} (h : isNumeric c = false ∧ c.isAlphanum = false)
    (rest : List Char) : Delimited (c :: rest) := by
  rintro _ _ ⟨⟩
  exact h

/-- A scanned value followed by scanned tokens. -/
abbrev andThen (tokens : Option (List Token)) (rest : List Char) : Option (List Token) :=
  tokens.bind fun ts => (scanFrom .between rest).map (ts ++ ·)

theorem scanFrom_number (n : Number) {rest : List Char} (h : Delimited rest) :
    scanFrom .between (n.render.toList ++ rest) = andThen (n.reread?.map tokens) rest := by
  have hnumeral : ∀ text : String, (∃ c cs, text.toList = c :: cs ∧
      (c = '-' ∨ c.isDigit = true) ∧ ∀ c ∈ cs, isNumeric c = true) →
      scanFrom .between (text.toList ++ rest) =
        andThen (((Numeral.read? text.toList).map Json.number).map tokens) rest := by
    rintro text ⟨c, cs, htext, hc, hcs⟩
    rw [htext, scanFrom_digit hc hcs h]
    simp [andThen, tokens, Option.bind_map, Function.comp_def]
  cases n with
  | integer n =>
      refine hnumeral (toString n) ?_
      have hdigits : ∀ m : Nat, ∀ c ∈ (toString m).toList, isNumeric c = true := numeric_toString
      cases n with
      | ofNat n =>
          obtain ⟨c, cs, hcs, hc⟩ := digitFirst_toString n
          exact ⟨c, cs, hcs, .inr hc, fun d hd => hdigits n d (hcs ▸ List.mem_cons_of_mem _ hd)⟩
      | negSucc n => exact ⟨'-', _, toList_toString_negSucc n, .inl rfl, hdigits (n + 1)⟩
  | double f =>
      rw [Number.render, Number.reread?]
      cases hf : Binary64.isFinite f with
      | false =>
          simp only [Bool.false_eq_true, if_false]
          rw [scanFrom_null h]
          simp [andThen, tokens]
      | true =>
          simp only [if_true]
          refine hnumeral _ ?_
          obtain ⟨sign, text, htext, hsign, hnumeric, ⟨c, cs, hcs, hc⟩, -⟩ :=
            Decimal.format_json hf
          rw [htext]
          rcases hsign with rfl | rfl
          · refine ⟨c, cs, by simp [hcs], .inr hc, fun d hd => ?_⟩
            exact hnumeric d (hcs ▸ List.mem_cons_of_mem _ hd)
          · exact ⟨'-', text.toList, by simp, .inl rfl, hnumeric⟩

/-- The tokens of a bracketed value. -/
theorem scanFrom_bracketed (first last : Char) {open_ close : Token}
    (hopen : start? first = some ([open_], .between))
    (hclose : start? last = some ([close], .between))
    (hlast : isNumeric last = false ∧ last.isAlphanum = false) {body : String}
    {inner : Option (List Token)}
    (hbody : ∀ {rest}, Delimited rest →
      scanFrom .between (body.toList ++ rest) = andThen inner rest)
    (rest : List Char) :
    scanFrom .between (first :: (body.toList ++ last :: rest)) =
      andThen (inner.map fun ts => open_ :: ts ++ [close]) rest := by
  rw [scanFrom_punctuation hopen, hbody (delimited_cons hlast rest)]
  cases inner with
  | none => rfl
  | some ts => simp [andThen, scanFrom_punctuation hclose, Function.comp_def]

/-- The tokens of two values with a comma between them. -/
theorem scanFrom_listed {a b : String} {as bs : Option (List Token)}
    (ha : ∀ {rest}, Delimited rest → scanFrom .between (a.toList ++ rest) = andThen as rest)
    (hb : ∀ {rest}, Delimited rest → scanFrom .between (b.toList ++ rest) = andThen bs rest)
    {rest : List Char} (h : Delimited rest) :
    scanFrom .between ((a ++ "," ++ b).toList ++ rest) =
      andThen (as.bind fun ts => bs.map fun us => ts ++ comma :: us) rest := by
  have htext : (a ++ "," ++ b).toList ++ rest = a.toList ++ ',' :: (b.toList ++ rest) := by simp
  rw [htext, ha (delimited_cons (by decide) _), andThen, scanFrom_punctuation (t := comma) rfl,
    hb h]
  cases as <;> cases bs <;> simp [andThen, Function.comp_def]

/-- The tokens of a field. -/
theorem scanFrom_field (k : String) {v : String} {ts : Option (List Token)}
    (hv : ∀ {rest}, Delimited rest → scanFrom .between (v.toList ++ rest) = andThen ts rest)
    {rest : List Char} (h : Delimited rest) :
    scanFrom .between ((quote k ++ ":" ++ v).toList ++ rest) =
      andThen (ts.map fun us => string k :: colon :: us) rest := by
  have htext : (quote k ++ ":" ++ v).toList ++ rest =
      (quote k).toList ++ ':' :: (v.toList ++ rest) := by simp
  rw [htext, scanFrom_quote, scanFrom_punctuation (t := colon) rfl, hv h]
  cases ts <;> simp [andThen, Function.comp_def]

theorem map_tokensOfItems (v w : Json) (more : List Json) :
    (rereadItems? (v :: w :: more)).map tokensOfItems = (v.reread?.map tokens).bind fun ts =>
      ((rereadItems? (w :: more)).map tokensOfItems).map fun us => ts ++ comma :: us := by
  simp only [rereadItems?]
  cases v.reread? with
  | none => rfl
  | some v =>
      cases w.reread? with
      | none => rfl
      | some w => cases rereadItems? more <;> simp [tokensOfItems]

theorem map_tokensOfFields (k : String) (v : Json) (e : String × Json)
    (more : List (String × Json)) :
    (rereadFields? ((k, v) :: e :: more)).map tokensOfFields =
      ((v.reread?.map tokens).map fun us => string k :: colon :: us).bind fun ts =>
        ((rereadFields? (e :: more)).map tokensOfFields).map fun us => ts ++ comma :: us := by
  simp only [rereadFields?]
  cases v.reread? with
  | none => rfl
  | some v =>
      cases e.2.reread? with
      | none => rfl
      | some w => cases rereadFields? more <;> simp [tokensOfFields]

mutual

/-- **Printed JSON is scanned into its tokens**, numbers being read from their texts. -/
theorem scanFrom_render : ∀ (j : Json) {rest : List Char}, Delimited rest →
    scanFrom .between (j.render.toList ++ rest) = andThen (j.reread?.map tokens) rest
  | .null, rest, h => by
      rw [render, reread?, scanFrom_null h]
      simp [andThen, tokens]
  | .bool b, rest, h => by
      rw [render, reread?, scanFrom_bool h]
      simp [andThen, tokens]
  | .number n, rest, h => by
      rw [render, reread?]
      exact scanFrom_number n h
  | .string s, rest, h => by
      rw [render, reread?, scanFrom_quote]
      simp [andThen, tokens]
  | .array items, rest, h => by
      have hitems := scanFrom_bracketed '[' ']' rfl rfl (by decide)
        (scanFrom_renderItems items) rest
      rw [render, reread?]
      simpa [Function.comp_def, tokens] using hitems
  | .object fields, rest, h => by
      have hfields := scanFrom_bracketed '\x7b' '\x7d' rfl rfl (by decide)
        (scanFrom_renderFields fields) rest
      rw [render, reread?]
      simpa [Function.comp_def, tokens] using hfields

theorem scanFrom_renderItems : ∀ (items : List Json) {rest : List Char}, Delimited rest →
    scanFrom .between ((renderItems items).toList ++ rest) =
      andThen ((rereadItems? items).map tokensOfItems) rest
  | [], rest, h => by
      simp [renderItems, rereadItems?, tokensOfItems, andThen]
  | [v], rest, h => by
      rw [renderItems, scanFrom_render v h]
      cases hv : v.reread? <;> simp [rereadItems?, hv, tokensOfItems]
  | v :: w :: more, rest, h => by
      rw [renderItems_cons_cons, map_tokensOfItems]
      exact scanFrom_listed (scanFrom_render v) (scanFrom_renderItems (w :: more)) h

theorem scanFrom_renderFields : ∀ (fields : List (String × Json)) {rest : List Char},
    Delimited rest → scanFrom .between ((renderFields fields).toList ++ rest) =
      andThen ((rereadFields? fields).map tokensOfFields) rest
  | [], rest, h => by
      simp [renderFields, rereadFields?, tokensOfFields, andThen]
  | [(k, v)], rest, h => by
      rw [renderFields, scanFrom_field k (scanFrom_render v) h]
      cases hv : v.reread? <;> simp [rereadFields?, hv, tokensOfFields]
  | (k, v) :: e :: more, rest, h => by
      rw [renderFields_cons_cons, map_tokensOfFields]
      exact scanFrom_listed (scanFrom_field k (scanFrom_render v))
        (scanFrom_renderFields (e :: more)) h

end

theorem scan_render (j : Json) : scan j.render = j.reread?.map tokens := by
  have hend : Delimited [] := fun _ _ h => by cases h
  have hrender := scanFrom_render j hend
  rw [List.append_nil] at hrender
  rw [scan, hrender]
  cases j.reread? <;> simp [andThen, scanFrom_nil, Mode.finish?]

end Token

end DocStore.Json
