/-
What the text of a value is read as.

Reading the text of a value, with more text behind it, takes just that text off the front, or fails.  What
comes of it is told by `echo?`: words, strings and whole numbers come back as they were, a double as the
number that its digits are read as, and lists and objects with what comes of their parts.  Containers that
nest too deep are not read.  Where values are wanted, an object that starts with the enclosing name stands
for the value of a text, and with a second field it is not read at all.

The proof follows the value.  Each of its parts ends where the signs that the text puts behind it begin, and
twice the length of the text is fuel enough.
-/
import Curator.Proofs.Json.Numeral

namespace Curator

namespace Json

namespace Reading

/-! ### Words and strings -/

theorem word_append (v : Json) (cs rest : List Char) : word v cs (cs ++ rest) = .ok (v, rest) := by
  induction cs with
  | nil => rw [List.nil_append, word]
  | cons c cs ih => rw [List.cons_append, word, if_pos (beq_self_eq_true c), ih]

theorem digit?_hexDigit : ∀ n < 16, Radix.digit? (hexDigit n) = some n := by decide

/-- An escape by number stands for its character. -/
theorem escaped_hexDigit (wanted : Bool) {c : Char} (hc : c.toNat < 32) (cs : List Char) :
    escaped wanted (['u', '0', '0', hexDigit (c.toNat / 16), hexDigit (c.toNat % 16)] ++ cs) =
      .ok (c, cs) := by
  have hunit : unit? ('0' :: '0' :: hexDigit (c.toNat / 16) :: hexDigit (c.toNat % 16) :: cs) =
      some (c.toNat, cs) := by
    rw [unit?, digit?_hexDigit _ (by omega), digit?_hexDigit _ (by omega)]
    have hnumber : c.toNat / 16 * 16 + c.toNat % 16 = c.toNat := by omega
    simp [Radix.digit?, hnumber]
  have hlow : ¬ (0xDC00 ≤ c.toNat) := by omega
  have hhigh : ¬ (0xD800 ≤ c.toNat) := by omega
  simp only [List.cons_append, List.nil_append, escaped, numbered, digits, hunit, Outcome.ok_bind]
  simp [hlow, hhigh]

/-- A character is escaped, and the escape stands for it, or it can stand as it is. -/
theorem escapeChar_cases (c : Char) :
    (∃ sign, escapeChar c = '\\' :: sign ∧ ∀ wanted cs, escaped wanted (sign ++ cs) = .ok (c, cs)) ∨
      (escapeChar c = [c] ∧ c ≠ '"' ∧ c ≠ '\\' ∧ 32 ≤ c.toNat) := by
  have hcode : ∀ n : Char, c.toNat == n.toNat → c = n := fun n h => Char.toNat_inj.mp (beq_iff_eq.mp h)
  unfold escapeChar
  split
  · rename_i h
    obtain rfl := beq_iff_eq.mp h
    exact .inl ⟨['"'], rfl, fun _ _ => rfl⟩
  rename_i hquote
  split
  · rename_i h
    obtain rfl := beq_iff_eq.mp h
    exact .inl ⟨['\\'], rfl, fun _ _ => rfl⟩
  rename_i hslash
  split
  · rename_i h
    obtain rfl := beq_iff_eq.mp h
    exact .inl ⟨['n'], rfl, fun _ _ => rfl⟩
  split
  · rename_i h
    obtain rfl := beq_iff_eq.mp h
    exact .inl ⟨['r'], rfl, fun _ _ => rfl⟩
  split
  · rename_i h
    obtain rfl := beq_iff_eq.mp h
    exact .inl ⟨['t'], rfl, fun _ _ => rfl⟩
  split
  · rename_i h
    obtain rfl := hcode '\x08' h
    exact .inl ⟨['b'], rfl, fun _ _ => rfl⟩
  split
  · rename_i h
    obtain rfl := hcode '\x0c' h
    exact .inl ⟨['f'], rfl, fun _ _ => rfl⟩
  split
  · rename_i h
    exact .inl ⟨_, rfl, fun wanted cs => escaped_hexDigit wanted h cs⟩
  · rename_i h
    exact .inr ⟨rfl, by simpa using hquote, by simpa using hslash, by omega⟩

theorem length_le_flatMap_escapeChar (cs : List Char) :
    cs.length ≤ (cs.flatMap escapeChar).length := by
  induction cs with
  | nil => exact Nat.le_refl _
  | cons c cs ih =>
      have hpos : 1 ≤ (escapeChar c).length := by
        rcases escapeChar_cases c with ⟨sign, hsign, -⟩ | ⟨hplain, -⟩
        · rw [hsign, List.length_cons]
          omega
        · rw [hplain, List.length_singleton]
      rw [List.flatMap_cons, List.length_append, List.length_cons]
      omega

/-- An escaped character is one character to the reader. -/
theorem characters_escapeChar {wanted : Bool} (fuel : Nat) (done cs : List Char) (c : Char) :
    characters wanted (fuel + 1) done (escapeChar c ++ cs) =
      characters wanted fuel (c :: done) cs := by
  rcases escapeChar_cases c with ⟨sign, hsign, hescaped⟩ | ⟨hplain, hquote, hslash, hcontrol⟩
  · rw [hsign, List.cons_append, characters, if_pos (beq_self_eq_true '\\'), hescaped]
    nofun
  · rw [hplain, List.cons_append, characters, if_neg (by simpa using hslash), if_neg (by omega)]
    · rfl
    · exact hquote

theorem characters_escaped {wanted : Bool} {cs : List Char} (rest : List Char) {fuel : Nat}
    {done : List Char} (hfuel : cs.length ≤ fuel) :
    characters wanted fuel done (cs.flatMap escapeChar ++ '"' :: rest) =
      .ok (String.ofList (done.reverse ++ cs), rest) := by
  induction cs generalizing fuel done with
  | nil => rw [List.flatMap_nil, List.nil_append, characters, List.append_nil]
  | cons c cs ih =>
      cases fuel with
      | zero => exact absurd hfuel (Nat.not_succ_le_zero _)
      | succ fuel =>
          rw [List.flatMap_cons, List.append_assoc, characters_escapeChar,
            ih (Nat.le_of_succ_le_succ hfuel), List.reverse_cons, List.append_assoc]
          rfl

/-- A quoted string is read as it was. -/
theorem string_text (wanted : Bool) (s : String) (rest : List Char) :
    string wanted (s.toList.flatMap escapeChar ++ '"' :: rest) = .ok (s, rest) := by
  have hfuel : s.toList.length ≤ (s.toList.flatMap escapeChar ++ '"' :: rest).length := by
    have hescaped := length_le_flatMap_escapeChar s.toList
    rw [List.length_append]
    omega
  rw [string, characters_escaped rest hfuel, List.reverse_nil, List.nil_append,
    String.ofList_toList]

/-! ### Texts of values -/

/-- A sign that can start a value. -/
def StartsValue (c : Char) : Prop := isSpace c = false ∧ c ∉ [',', ']', '}']

theorem startsValue_of_sign_or_digit {c : Char} (hc : c = '-' ∨ c.isDigit = true) :
    StartsValue c := by
  rcases hc with rfl | hdigit
  · exact ⟨rfl, by decide⟩
  · have hne : ∀ d : Char, d.isDigit = false → c ≠ d := by
      rintro d hd rfl
      rw [hd] at hdigit
      cases hdigit
    exact ⟨by simp [isSpace, hne], by simp [hne]⟩

theorem exists_cons_text (v : Json) : ∃ c cs, (text v).toList = c :: cs ∧ StartsValue c := by
  cases v with
  | null => exact ⟨'n', _, rfl, rfl, by decide⟩
  | bool b => cases b <;> exact ⟨_, _, rfl, rfl, by decide⟩
  | number n =>
      obtain ⟨c, cs, htext, hc⟩ := exists_cons_numberText n
      exact ⟨c, cs, htext, startsValue_of_sign_or_digit hc⟩
  | string s => exact ⟨'"', s.toList.flatMap escapeChar ++ ['"'], by simp [text, quote], rfl, by decide⟩
  | array xs => exact ⟨'[', (itemsText xs).toList ++ [']'], by simp [text], rfl, by decide⟩
  | object fs => exact ⟨'{', (fieldsText fs).toList ++ ['}'], by simp [text], rfl, by decide⟩

theorem skip_cons {c : Char} (hc : isSpace c = false) (cs : List Char) : skip (c :: cs) = c :: cs := by
  rw [skip, List.dropWhile_cons_of_neg (by rw [hc]; exact Bool.false_ne_true)]

/-- The items behind the first one, with the sign in front of them. -/
def itemsBehind : List Json → List Char
  | [] => []
  | x :: xs => ',' :: (itemsText (x :: xs)).toList

theorem toList_itemsText (x : Json) (xs : List Json) :
    (itemsText (x :: xs)).toList = (text x).toList ++ itemsBehind xs := by
  cases xs with
  | nil => simp [itemsText, itemsBehind]
  | cons y ys => simp [itemsText, itemsBehind]

/-- The fields behind the first one, with the sign in front of them. -/
def fieldsBehind : List (String × Json) → List Char
  | [] => []
  | e :: fs => ',' :: (fieldsText (e :: fs)).toList

theorem toList_fieldsText (name : String) (v : Json) (fs : List (String × Json)) :
    (fieldsText ((name, v) :: fs)).toList =
      '"' :: (name.toList.flatMap escapeChar ++ '"' :: ':' :: ((text v).toList ++ fieldsBehind fs)) := by
  cases fs with
  | nil => simp [fieldsText, fieldsBehind, quote]
  | cons e fs => simp [fieldsText, fieldsBehind, quote]


/-! ### What a value comes back as -/

end Reading

mutual

/-- What the text of a value is read as, where containers nest at most `depth` deep.  Where values are
wanted, `enclosed` reads the texts that objects enclose. -/
def echo? (enclosed : Option (String → Except Fault Json)) : Nat → Json → Option Json
  | _, null => some null
  | _, bool b => some (bool b)
  | _, number n => n.reread?.map number
  | _, string s => some (string s)
  | 0, array _ => none
  | depth + 1, array xs => (echoItems? enclosed depth xs).map array
  | 0, object _ => none
  | depth + 1, object fs =>
    match enclosed.bind fun _ => enclosed? fs with
    | some text => enclosed.bind fun read => text.bind fun s => (read s).toOption
    | none => (echoFields? enclosed depth fs).map object

def echoItems? (enclosed : Option (String → Except Fault Json)) :
    Nat → List Json → Option (List Json)
  | _, [] => some []
  | depth, x :: xs =>
    (echo? enclosed depth x).bind fun w => (echoItems? enclosed depth xs).map fun ws => w :: ws

def echoFields? (enclosed : Option (String → Except Fault Json)) :
    Nat → List (String × Json) → Option (List (String × Json))
  | _, [] => some []
  | depth, (name, v) :: fs =>
    (echo? enclosed depth v).bind fun w =>
      (echoFields? enclosed depth fs).map fun gs => (name, w) :: gs

end

namespace Reading

/-- An outline wants what it is met with, as a value or as it is written. -/
def Keeps (asValue : Bool) (o : Outline) : Prop := o.isNothing = false ∧ o.isValue = asValue

mutual

/-- An outline wants all of a value, everywhere as a value or nowhere. -/
def Wants (asValue : Bool) : Outline → Json → Prop
  | o, .array xs => Keeps asValue o ∧ WantsItems asValue o 0 xs
  | o, .object fs => Keeps asValue o ∧ WantsFields asValue o fs
  | o, _ => Keeps asValue o

def WantsItems (asValue : Bool) : Outline → Nat → List Json → Prop
  | _, _, [] => True
  | o, place, x :: xs => Wants asValue (o.item place) x ∧ WantsItems asValue o (place + 1) xs

def WantsFields (asValue : Bool) : Outline → List (String × Json) → Prop
  | _, [] => True
  | o, (name, v) :: fs => Wants asValue (o.field name) v ∧ WantsFields asValue o fs

end

theorem Wants.keeps {asValue : Bool} {o : Outline} {v : Json} (h : Wants asValue o v) :
    Keeps asValue o := by
  cases v with
  | array xs =>
      rw [Wants] at h
      exact h.1
  | object fs =>
      rw [Wants] at h
      exact h.1
  | _ =>
      rw [Wants] at h
      · exact h
      all_goals
        intro _ hv
        cases hv

/-- The reader of enclosed texts, where values are wanted. -/
def readerFor (asValue : Bool) (enclosed : String → Except Fault Json) :
    Option (String → Except Fault Json) := if asValue then some enclosed else none

section Values

variable {asValue : Bool} {enclosed : String → Except Fault Json} {fuel depth : Nat} {o : Outline}

theorem skip_text (v : Json) (rest : List Char) :
    skip ((text v).toList ++ rest) = (text v).toList ++ rest := by
  obtain ⟨c, cs, htext, hspace, -⟩ := exists_cons_text v
  rw [htext, List.cons_append, skip_cons hspace]

theorem colon_text (v : Json) (rest : List Char) :
    colon (':' :: ((text v).toList ++ rest)) = .ok ((), (text v).toList ++ rest) := by
  rw [colon, skip_cons rfl]
  exact congrArg (fun cs => Except.ok ((), cs)) (skip_text v _)

theorem toList_text_string (s : String) :
    (text (.string s)).toList = '"' :: (s.toList.flatMap escapeChar ++ ['"']) := by
  simp [text, quote]

theorem toList_text_array (xs : List Json) :
    (text (.array xs)).toList = '[' :: ((itemsText xs).toList ++ [']']) := by
  simp [text]

theorem toList_text_object (fs : List (String × Json)) :
    (text (.object fs)).toList = '{' :: ((fieldsText fs).toList ++ ['}']) := by
  simp [text]

/-- What does not start like a string, an array or an object is a word or a number. -/
theorem value_scalar (ho : Keeps asValue o) {c : Char} (hc : c ≠ '"' ∧ c ≠ '[' ∧ c ≠ '{')
    (cs : List Char) : value enclosed (fuel + 1) depth o (c :: cs) = scalar true (c :: cs) := by
  obtain ⟨hquote, hbracket, hbrace⟩ := hc
  rw [value, ho.1]
  · rfl
  · exact fun _ heq => hquote (List.cons.inj heq).1
  · exact fun _ heq => hbracket (List.cons.inj heq).1
  · exact fun _ heq => hbrace (List.cons.inj heq).1

/-- The signs behind a value in a list end it. -/
theorem endsValue_itemsBehind (xs : List Json) (rest : List Char) :
    EndsValue (itemsBehind xs ++ ']' :: rest) := by
  cases xs <;> (rintro c ⟨⟩; simp)

theorem endsValue_fieldsBehind (fs : List (String × Json)) (rest : List Char) :
    EndsValue (fieldsBehind fs ++ '}' :: rest) := by
  cases fs <;> (rintro c ⟨⟩; simp)

theorem skip_itemsText (x : Json) (xs : List Json) (rest : List Char) :
    skip ((itemsText (x :: xs)).toList ++ rest) = (itemsText (x :: xs)).toList ++ rest := by
  rw [toList_itemsText, List.append_assoc, skip_text]

theorem skip_fieldsText (name : String) (v : Json) (fs : List (String × Json))
    (rest : List Char) :
    skip ((fieldsText ((name, v) :: fs)).toList ++ rest) =
      '"' :: (name.toList.flatMap escapeChar ++ '"' :: ':' ::
        ((text v).toList ++ (fieldsBehind fs ++ rest))) := by
  rw [toList_fieldsText, List.cons_append, skip_cons rfl]
  simp

/-- Behind the bracket that opens it, a list is read item by item. -/
theorem value_items {c : Char} {cs more : List Char} (hskip : skip cs = c :: more) (hc : c ≠ ']') :
    value enclosed (fuel + 1) (depth + 1) o ('[' :: cs) =
      (items enclosed fuel depth o 0 (c :: more)).map fun r => (.array r.1, r.2) := by
  rw [value, inside?, hskip]
  dsimp only
  split
  · rename_i heq
    cases heq
  · rename_i heq
    exact absurd (List.cons.inj heq).1 hc
  · rfl

/-- Behind the brace that opens it, an object is read as the value of a text or field by field. -/
theorem value_fields (ho : Keeps asValue o) {name : String} {cs more rest : List Char}
    (hskip : skip cs = '"' :: more) (hname : string true more = .ok (name, rest)) :
    value enclosed (fuel + 1) (depth + 1) o ('{' :: cs) =
      if (asValue && name == enclosingName) = true then enclosedValue enclosed rest
      else (fields enclosed fuel depth o name rest).map fun r => (.object r.1, r.2) := by
  rw [value, inside?, hskip]
  dsimp only
  rw [ho.1, ho.2, Bool.not_false]
  split
  · rename_i heq
    cases heq
  · rename_i heq
    cases (List.cons.inj heq).1
  · rename_i heq
    obtain rfl := (List.cons.inj heq).2
    rw [hname]
  · rename_i hother
    exact absurd rfl (hother more)

/-- Behind a comma, a list goes on with its next item. -/
theorem items_comma {place : Nat} {c : Char} {cs behind more next : List Char} {w : Json}
    (hvalue : value enclosed fuel depth (o.item place) cs = .ok (w, behind))
    (hcomma : skip behind = ',' :: more) (hskip : skip more = c :: next) (hc : c ≠ ']') :
    items enclosed (fuel + 1) depth o place cs =
      (items enclosed fuel depth o (place + 1) (c :: next)).map fun r => (w :: r.1, r.2) := by
  rw [items, hvalue]
  dsimp only
  rw [hcomma]
  split
  · rename_i heq
    cases heq
  · rename_i heq
    cases (List.cons.inj heq).1
  · rename_i heq
    obtain rfl := (List.cons.inj heq).2
    rw [hskip]
    split
    · rename_i heq
      cases heq
    · rename_i heq
      exact absurd (List.cons.inj heq).1 hc
    · rfl
  · rename_i hother
    exact absurd rfl (hother _)

/-- Behind a comma, an object goes on with the name of its next field. -/
theorem fields_comma {name next : String} {cs before behind more quoted rest : List Char} {w : Json}
    (ho : Keeps asValue o) (hfield : Keeps asValue (o.field name))
    (hcolon : colon cs = .ok ((), before))
    (hvalue : value enclosed fuel depth (o.field name) before = .ok (w, behind))
    (hcomma : skip behind = ',' :: more) (hskip : skip more = '"' :: quoted)
    (hname : string true quoted = .ok (next, rest)) :
    fields enclosed (fuel + 1) depth o name cs =
      (fields enclosed fuel depth o next rest).map fun r => ((name, w) :: r.1, r.2) := by
  rw [fields, hcolon]
  dsimp only
  rw [hvalue, hfield.1]
  dsimp only
  rw [hcomma]
  split
  · rename_i heq
    cases heq
  · rename_i heq
    cases (List.cons.inj heq).1
  · rename_i heq
    obtain rfl := (List.cons.inj heq).2
    rw [hskip]
    split
    · rename_i heq
      cases heq
    · rename_i heq
      cases (List.cons.inj heq).1
    · rename_i heq
      obtain rfl := (List.cons.inj heq).2
      rw [ho.1, Bool.not_false, hname]
      rfl
    · rename_i hother
      exact absurd rfl (hother _)
  · rename_i hother
    exact absurd rfl (hother _)

/-- Items are read one after the other. -/
theorem items_cons {read : Option (String → Except Fault Json)} {x : Json} {xs : List Json}
    {place : Nat} {rest : List Char}
    (hx : (value enclosed fuel depth (o.item place)
        ((text x).toList ++ (itemsBehind xs ++ ']' :: rest))).toOption =
      (echo? read depth x).map fun w => (w, itemsBehind xs ++ ']' :: rest))
    (hxs : xs ≠ [] → (items enclosed fuel depth o (place + 1)
        ((itemsText xs).toList ++ ']' :: rest)).toOption =
      (echoItems? read depth xs).map fun ws => (ws, rest)) :
    (items enclosed (fuel + 1) depth o place
        ((itemsText (x :: xs)).toList ++ ']' :: rest)).toOption =
      (echoItems? read depth (x :: xs)).map fun ws => (ws, rest) := by
  rw [toList_itemsText, List.append_assoc, echoItems?]
  cases hecho : echo? read depth x with
  | none =>
      rw [hecho] at hx
      obtain ⟨e, he⟩ := Outcome.toOption_eq_none_iff.mp hx
      rw [items, he]
      rfl
  | some w =>
      rw [hecho] at hx
      have hvalue := Outcome.toOption_eq_some_iff.mp hx
      cases xs with
      | nil =>
          rw [items, hvalue, echoItems?]
          rfl
      | cons y ys =>
          obtain ⟨c, cs, htext, -, hsign⟩ := exists_cons_text y
          have hitems : (itemsText (y :: ys)).toList ++ ']' :: rest =
              c :: (cs ++ (itemsBehind ys ++ ']' :: rest)) := by
            rw [toList_itemsText, htext, List.append_assoc, List.cons_append]
          have hskip := (skip_itemsText y ys (']' :: rest)).trans hitems
          have hc : c ≠ ']' := by
            rintro rfl
            exact absurd (by simp) hsign
          rw [items_comma hvalue (skip_cons rfl _) hskip hc, ← hitems, Outcome.toOption_map,
            hxs (List.cons_ne_nil y ys), Option.bind_some, Option.map_map, Option.map_map]
          rfl

/-- Fields are read one after the other. -/
theorem fields_cons {read : Option (String → Except Fault Json)} {name : String} {v : Json}
    {fs : List (String × Json)} {rest : List Char} (ho : Keeps asValue o)
    (hfield : Keeps asValue (o.field name))
    (hv : (value enclosed fuel depth (o.field name)
        ((text v).toList ++ (fieldsBehind fs ++ '}' :: rest))).toOption =
      (echo? read depth v).map fun w => (w, fieldsBehind fs ++ '}' :: rest))
    (hfs : ∀ next u more, fs = (next, u) :: more →
      (fields enclosed fuel depth o next
        (':' :: ((text u).toList ++ (fieldsBehind more ++ '}' :: rest)))).toOption =
      (echoFields? read depth fs).map fun gs => (gs, rest)) :
    (fields enclosed (fuel + 1) depth o name
        (':' :: ((text v).toList ++ (fieldsBehind fs ++ '}' :: rest)))).toOption =
      (echoFields? read depth ((name, v) :: fs)).map fun gs => (gs, rest) := by
  rw [echoFields?]
  cases hecho : echo? read depth v with
  | none =>
      rw [hecho] at hv
      obtain ⟨e, he⟩ := Outcome.toOption_eq_none_iff.mp hv
      rw [fields, colon_text]
      dsimp only
      rw [he]
      rfl
  | some w =>
      rw [hecho] at hv
      have hvalue := Outcome.toOption_eq_some_iff.mp hv
      cases fs with
      | nil =>
          rw [fields, colon_text]
          dsimp only
          rw [hvalue, hfield.1, echoFields?]
          rfl
      | cons e more =>
          obtain ⟨next, u⟩ := e
          rw [fields_comma ho hfield (colon_text v _) hvalue (skip_cons rfl _)
              (skip_fieldsText next u more ('}' :: rest)) (string_text true next _),
            Outcome.toOption_map, hfs next u more rfl, Option.bind_some, Option.map_map,
            Option.map_map]
          rfl

/-- Only texts of strings start with a quote. -/
theorem exists_string_of_text {v : Json} {cs rest : List Char}
    (h : (text v).toList ++ rest = '"' :: cs) : ∃ s, v = .string s := by
  cases v with
  | null => cases (List.cons.inj h).1
  | bool b => cases b <;> cases (List.cons.inj h).1
  | number n =>
      obtain ⟨d, ds, htext, hd⟩ := exists_cons_numberText n
      rw [text, htext] at h
      obtain rfl := (List.cons.inj h).1
      rcases hd with hd | hd <;> cases hd
  | string s => exact ⟨s, rfl⟩
  | array xs =>
      rw [toList_text_array] at h
      cases (List.cons.inj h).1
  | object fs =>
      rw [toList_text_object] at h
      cases (List.cons.inj h).1

/-- The text that an object encloses is read up to the end of the object; with another field behind it, it
is not read at all, and neither is anything but a text. -/
theorem enclosedValue_text (v : Json) (fs : List (String × Json)) (rest : List Char) :
    (enclosedValue enclosed
        (':' :: ((text v).toList ++ (fieldsBehind fs ++ '}' :: rest)))).toOption =
      ((if fs.isEmpty then v.string? else none).bind fun s => (enclosed s).toOption).map
        fun w => (w, rest) := by
  rw [enclosedValue, colon_text, Outcome.ok_bind]
  dsimp only
  by_cases hv : ∃ s, v = .string s
  · obtain ⟨s, rfl⟩ := hv
    rw [toList_text_string, List.cons_append, List.append_assoc]
    split
    · rename_i heq
      cases (List.cons.inj heq).1
    · rename_i heq
      cases (List.cons.inj heq).1
    · rename_i heq
      obtain rfl := (List.cons.inj heq).2
      rw [List.cons_append, List.nil_append, string_text, Outcome.ok_bind]
      dsimp only
      cases hread : enclosed s with
      | error f =>
          cases fs with
          | nil =>
              rw [List.isEmpty_nil, if_pos rfl, string?, Option.bind_some, hread]
              rfl
          | cons e more => rfl
      | ok w =>
          cases fs with
          | nil =>
              rw [List.isEmpty_nil, if_pos rfl, string?, Option.bind_some, hread]
              rfl
          | cons e more => rfl
    · rename_i hother
      exact absurd rfl (hother _)
  · have hnone : (if fs.isEmpty then v.string? else none) = none := by
      split
      · cases v with
        | string s => exact absurd ⟨s, rfl⟩ hv
        | _ => rfl
      · rfl
    rw [hnone, Option.bind_none, Option.map_none]
    split
    · rfl
    · rfl
    · rename_i heq
      exact absurd (exists_string_of_text heq) hv
    · cases scalar true ((text v).toList ++ (fieldsBehind fs ++ '}' :: rest)) <;> rfl

theorem value_word {v : Json} {c : Char} {cs : List Char} (ho : Keeps asValue o)
    (htext : (text v).toList = c :: cs) (hc : c ≠ '"' ∧ c ≠ '[' ∧ c ≠ '{') (rest : List Char)
    (hword : scalar true (c :: (cs ++ rest)) = word v cs (cs ++ rest)) :
    value enclosed (fuel + 1) depth o ((text v).toList ++ rest) = .ok (v, rest) := by
  rw [htext, List.cons_append, value_scalar ho hc, hword, word_append]

theorem value_bool (ho : Keeps asValue o) (b : Bool) (rest : List Char) :
    value enclosed (fuel + 1) depth o ((text (.bool b)).toList ++ rest) = .ok (.bool b, rest) := by
  cases b with
  | true => exact value_word ho rfl (by decide) rest rfl
  | false => exact value_word ho rfl (by decide) rest rfl

theorem value_number (ho : Keeps asValue o) (n : Number) {rest : List Char}
    (hends : EndsValue rest) :
    (value enclosed (fuel + 1) depth o ((text (.number n)).toList ++ rest)).toOption =
      n.reread?.map fun m => (.number m, rest) := by
  obtain ⟨c, cs, htext, hc⟩ := exists_cons_numberText n
  have hstart : c ≠ '"' ∧ c ≠ '[' ∧ c ≠ '{' := by
    rcases hc with rfl | hdigit
    · decide
    · refine ⟨?_, ?_, ?_⟩ <;>
        · rintro rfl
          cases hdigit
  have hread := toOption_number_text hends n
  rw [htext, List.cons_append] at hread
  rw [text, htext, List.cons_append, value_scalar ho hstart, scalar_of_sign_or_digit hc,
    Outcome.toOption_map, hread, Option.map_map]
  rfl

theorem value_string (ho : Keeps asValue o) (s : String) (rest : List Char) :
    value enclosed (fuel + 1) depth o ((text (.string s)).toList ++ rest) =
      .ok (.string s, rest) := by
  rw [toList_text_string, List.cons_append, List.append_assoc, value, ho.1, Bool.not_false,
    List.cons_append, List.nil_append, string_text]
  rfl

/-- A list is read if its items are, where there is room for a container. -/
theorem value_array {read : Option (String → Except Fault Json)} (ho : Keeps asValue o)
    {xs : List Json} {rest : List Char}
    (hitems : ∀ depth, xs ≠ [] →
      (items enclosed fuel depth o 0 ((itemsText xs).toList ++ ']' :: rest)).toOption =
        (echoItems? read depth xs).map fun ws => (ws, rest)) :
    (value enclosed (fuel + 1) depth o ((text (.array xs)).toList ++ rest)).toOption =
      (echo? read depth (.array xs)).map fun w => (w, rest) := by
  rw [toList_text_array, List.cons_append, List.append_assoc, List.cons_append, List.nil_append]
  cases depth with
  | zero =>
      rw [value, inside?, ho.1, echo?]
      rfl
  | succ depth =>
      rw [echo?]
      cases xs with
      | nil =>
          rw [echoItems?, value, inside?]
          rfl
      | cons x xs =>
          have hread := hitems depth (List.cons_ne_nil x xs)
          obtain ⟨c, cs, htext, hspace, hsign⟩ := exists_cons_text x
          have hcons : (itemsText (x :: xs)).toList ++ ']' :: rest =
              c :: (cs ++ (itemsBehind xs ++ ']' :: rest)) := by
            rw [toList_itemsText, htext, List.append_assoc, List.cons_append]
          have hskip := skip_itemsText x xs (']' :: rest)
          have hc : c ≠ ']' := by
            rintro rfl
            exact hsign (by simp)
          rw [hcons] at hskip hread ⊢
          rw [value_items hskip hc, Outcome.toOption_map, hread, Option.map_map, Option.map_map]
          rfl

/-- An object is read if its fields are, where there is room for a container, unless it stands for the
value of a text. -/
theorem value_object (ho : Keeps asValue o) {fs : List (String × Json)} {rest : List Char}
    (hfields : ∀ depth name v more, fs = (name, v) :: more →
      (fields enclosed fuel depth o name
          (':' :: ((text v).toList ++ (fieldsBehind more ++ '}' :: rest)))).toOption =
        (echoFields? (readerFor asValue enclosed) depth fs).map fun gs => (gs, rest)) :
    (value enclosed (fuel + 1) depth o ((text (.object fs)).toList ++ rest)).toOption =
      (echo? (readerFor asValue enclosed) depth (.object fs)).map fun w => (w, rest) := by
  rw [toList_text_object, List.cons_append, List.append_assoc, List.cons_append, List.nil_append]
  cases depth with
  | zero =>
      rw [value, inside?, ho.1, echo?]
      rfl
  | succ depth =>
      rw [echo?]
      cases fs with
      | nil =>
          have hnone : ((readerFor asValue enclosed).bind fun _ => enclosed? []) = none := by
            cases asValue <;> rfl
          rw [hnone, echoFields?, value, inside?]
          rfl
      | cons e fs =>
          obtain ⟨name, v⟩ := e
          have hread := hfields depth name v fs rfl
          have hskip := skip_fieldsText name v fs ('}' :: rest)
          rw [value_fields ho hskip (string_text true name _)]
          by_cases henclosing : (asValue && name == enclosingName) = true
          · obtain ⟨rfl, hname⟩ := Bool.and_eq_true_iff.mp henclosing
            rw [if_pos henclosing, enclosedValue_text, readerFor, if_pos rfl, Option.bind_some,
              enclosed?, if_pos hname]
            rfl
          · have hnone : ((readerFor asValue enclosed).bind fun _ =>
                enclosed? ((name, v) :: fs)) = none := by
              cases asValue with
              | false => rfl
              | true => exact if_neg henclosing
            rw [if_neg henclosing, hnone, Outcome.toOption_map, hread, Option.map_map,
              Option.map_map]
            rfl

theorem length_text_pos (v : Json) : 0 < (text v).toList.length := by
  obtain ⟨c, cs, htext, -⟩ := exists_cons_text v
  rw [htext]
  exact Nat.succ_pos _

mutual

/-- The text of a value is taken off the front of a text, and what comes of it is told by `echo?`. -/
theorem value_text : ∀ (v : Json) (fuel depth : Nat) (o : Outline) (rest : List Char),
    Wants asValue o v → EndsValue rest → 2 * (text v).toList.length ≤ fuel + 1 →
    (value enclosed (fuel + 1) depth o ((text v).toList ++ rest)).toOption =
      (echo? (readerFor asValue enclosed) depth v).map fun w => (w, rest)
  | .null => by
      intro fuel depth o rest hwants _ _
      rw [value_word hwants.keeps rfl (by decide) rest rfl, echo?]
      rfl
  | .bool b => by
      intro fuel depth o rest hwants _ _
      rw [value_bool hwants.keeps, echo?]
      rfl
  | .number n => by
      intro fuel depth o rest hwants hends _
      rw [value_number hwants.keeps n hends, echo?, Option.map_map]
      rfl
  | .string s => by
      intro fuel depth o rest hwants _ _
      rw [value_string hwants.keeps, echo?]
      rfl
  | .array xs => by
      intro fuel depth o rest hwants _ hfuel
      rw [Wants] at hwants
      rw [toList_text_array, List.length_cons, List.length_append, List.length_singleton] at hfuel
      exact value_array hwants.1 fun _ hsome => items_text xs _ _ _ _ _ hsome hwants.2 (by omega)
  | .object fs => by
      intro fuel depth o rest hwants _ hfuel
      rw [Wants] at hwants
      rw [toList_text_object, List.length_cons, List.length_append, List.length_singleton] at hfuel
      exact value_object hwants.1 fun _ name v more hfs =>
        fields_text fs _ _ _ _ hwants.1 hwants.2 (by omega) name v more hfs

theorem items_text : ∀ (xs : List Json) (fuel depth place : Nat) (o : Outline) (rest : List Char),
    xs ≠ [] → WantsItems asValue o place xs → 2 * (itemsText xs).toList.length + 1 ≤ fuel →
    (items enclosed fuel depth o place ((itemsText xs).toList ++ ']' :: rest)).toOption =
      (echoItems? (readerFor asValue enclosed) depth xs).map fun ws => (ws, rest)
  | [] => by
      intro fuel depth place o rest hsome
      exact absurd rfl hsome
  | x :: xs => by
      intro fuel depth place o rest _ hwants hfuel
      have hpos := length_text_pos x
      rw [WantsItems] at hwants
      rw [toList_itemsText, List.length_append] at hfuel
      obtain ⟨fuel, rfl⟩ : ∃ n, fuel = n + 2 := ⟨fuel - 2, by omega⟩
      refine items_cons (value_text x _ _ _ _ hwants.1 (endsValue_itemsBehind xs rest) (by omega)) ?_
      intro hsome
      refine items_text xs _ _ _ _ _ hsome hwants.2 ?_
      cases xs with
      | nil => exact absurd rfl hsome
      | cons y ys =>
          rw [itemsBehind, List.length_cons] at hfuel
          omega

theorem fields_text : ∀ (fs : List (String × Json)) (fuel depth : Nat) (o : Outline)
    (rest : List Char), Keeps asValue o → WantsFields asValue o fs →
    2 * (fieldsText fs).toList.length + 1 ≤ fuel →
    ∀ name v more, fs = (name, v) :: more →
    (fields enclosed fuel depth o name
        (':' :: ((text v).toList ++ (fieldsBehind more ++ '}' :: rest)))).toOption =
      (echoFields? (readerFor asValue enclosed) depth fs).map fun gs => (gs, rest)
  | [] => by
      intro fuel depth o rest _ _ _ name v more hnone
      cases hnone
  | (name, v) :: fs => by
      intro fuel depth o rest ho hwants hfuel _ _ _ hsome
      cases hsome
      have hpos := length_text_pos v
      rw [WantsFields] at hwants
      rw [toList_fieldsText] at hfuel
      simp only [List.length_cons, List.length_append] at hfuel
      obtain ⟨fuel, rfl⟩ : ∃ n, fuel = n + 2 := ⟨fuel - 2, by omega⟩
      refine fields_cons ho hwants.1.keeps
        (value_text v _ _ _ _ hwants.1 (endsValue_fieldsBehind fs rest) (by omega)) ?_
      intro next u more hmore
      refine fields_text fs _ _ _ _ ho hwants.2 ?_ next u more hmore
      rw [hmore] at hfuel ⊢
      rw [fieldsBehind, List.length_cons] at hfuel
      omega

end

end Values

mutual

theorem wants_of_same {asValue : Bool} {o : Outline} (ho : Keeps asValue o)
    (hitem : ∀ place, o.item place = o) (hfield : ∀ name, o.field name = o) :
    ∀ v : Json, Wants asValue o v
  | .array xs => by
      rw [Wants]
      exact ⟨ho, wantsItems_of_same ho hitem hfield xs 0⟩
  | .object fs => by
      rw [Wants]
      exact ⟨ho, wantsFields_of_same ho hitem hfield fs⟩
  | .null | .bool _ | .number _ | .string _ => by
      rw [Wants]
      · exact ho
      all_goals nofun

theorem wantsItems_of_same {asValue : Bool} {o : Outline} (ho : Keeps asValue o)
    (hitem : ∀ place, o.item place = o) (hfield : ∀ name, o.field name = o) :
    ∀ (xs : List Json) (place : Nat), WantsItems asValue o place xs
  | [], _ => trivial
  | x :: xs, place => by
      rw [WantsItems, hitem]
      exact ⟨wants_of_same ho hitem hfield x, wantsItems_of_same ho hitem hfield xs (place + 1)⟩

theorem wantsFields_of_same {asValue : Bool} {o : Outline} (ho : Keeps asValue o)
    (hitem : ∀ place, o.item place = o) (hfield : ∀ name, o.field name = o) :
    ∀ fs : List (String × Json), WantsFields asValue o fs
  | [] => trivial
  | (name, v) :: fs => by
      rw [WantsFields, hfield]
      exact ⟨wants_of_same ho hitem hfield v, wantsFields_of_same ho hitem hfield fs⟩

end

theorem wants_value (v : Json) : Wants true .value v :=
  wants_of_same (o := .value) ⟨rfl, rfl⟩ (fun _ => rfl) (fun _ => rfl) v

theorem wants_full (v : Json) : Wants false .full v :=
  wants_of_same (o := .full) ⟨rfl, rfl⟩ (fun _ => rfl) (fun _ => rfl) v

theorem whole_text {asValue : Bool} {o : Outline} {v : Json} (h : Wants asValue o v)
    (enclosed : String → Except Fault Json) :
    ((whole enclosed o (text v).toList).map (·.1)).toOption =
      echo? (readerFor asValue enclosed) maxDepth v := by
  have hskip := skip_text v []
  have hends : EndsValue [] := nofun
  have hread : (value enclosed (2 * (text v).toList.length + 2) maxDepth o
      ((text v).toList ++ [])).toOption =
        (echo? (readerFor asValue enclosed) maxDepth v).map fun w => (w, []) :=
    value_text v _ _ _ _ h hends (by omega)
  rw [List.append_nil] at hskip hread
  rw [whole, hskip, Outcome.toOption_map, Outcome.toOption_bind, hread]
  cases echo? (readerFor asValue enclosed) maxDepth v <;> rfl

/-- What the text of a value is read as, by itself. -/
theorem wanted_text {asValue : Bool} {o : Outline} {v : Json} (h : Wants asValue o v)
    (levels : Nat) :
    ∃ enclosed, (wanted levels o (text v)).toOption =
      echo? (readerFor asValue enclosed) maxDepth v := by
  cases levels with
  | zero =>
      refine ⟨_, Eq.trans ?_ (whole_text h fun _ => .ok .null)⟩
      rw [wanted]
      cases whole (fun _ => .ok .null) o (text v).toList <;> rfl
  | succ levels =>
      refine ⟨_, Eq.trans ?_ (whole_text h (wanted levels .value))⟩
      rw [wanted]
      cases whole (wanted levels .value) o (text v).toList <;> rfl

end Reading

end Json

end Curator
