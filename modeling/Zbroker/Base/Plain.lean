import Zbroker.Base.Bson

/-!
# A plain driver

An instance of `Mongo`, to evaluate the model on concrete inputs: conditions are equalities on fields,
and a projection lists the fields that it keeps.

* `BSON.text` — the JSON text of an object.
* `BSON.readText` — reads a text. The depth of the recursion is bounded by the length of the text.
* **`BSON.readText_objectText`**: it reads back the objects that `text` printed. The proof is by
  induction on the value (`readValue_valueText`, `readFields_fieldsText`), and then on the list of the
  objects (`readFields_members`).
* `Mongo.plain` — the driver.
-/

namespace Zbroker

/-! ## The text of an object -/

namespace BSON

/-- `OID::str`: 24 hexadecimal digits. -/
def oidText (o : OID) : String :=
  let digits := Nat.toDigits 16 o.val
  String.ofList (List.replicate (24 - digits.length) '0' ++ digits)

/-- A character of a string, with a backslash where it would mean something else: a name that starts
with `$` is not that of an ObjectID then. -/
def escapeChar (c : Char) : List Char :=
  if c = '"' ∨ c = '\\' ∨ c = '$' then ['\\', c] else [c]

/-- The characters of a string in a text. -/
def escape (s : String) : String := String.ofList (s.toList.flatMap escapeChar)

mutual

/-- The JSON text of a value. -/
def valueText : BSONValue → String
  | .int n => toString n
  | .str s => "\"" ++ escape s ++ "\""
  | .bool b => if b then "true" else "false"
  | .oid o => "\x7b \"$oid\" : \"" ++ oidText o ++ "\" \x7d"
  | .obj fields => "\x7b" ++ fieldsText " " fields ++ " \x7d"

/-- The JSON text of the elements of an object, each with the separator in front of it. -/
def fieldsText (sep : String) : List (String × BSONValue) → String
  | [] => ""
  | (k, v) :: rest => sep ++ "\"" ++ escape k ++ "\" : " ++ valueText v ++ fieldsText ", " rest

end

/-- The JSON text of an object, `{ "a" : 1, "b" : 2 }`. -/
def text (o : BSONObj) : String := valueText (.obj o)

/-- The text of an element's value is part of the text of the object. -/
theorem utf8ByteSize_valueText_le {e : String × BSONValue} {o : BSONObj} (he : e ∈ o)
    (sep : String) : (valueText e.2).utf8ByteSize ≤ (fieldsText sep o).utf8ByteSize := by
  induction o generalizing sep with
  | nil => cases he
  | cons e' rest ih =>
      obtain ⟨k, v⟩ := e'
      simp only [fieldsText, String.utf8ByteSize_append]
      rcases List.mem_cons.mp he with rfl | he'
      · dsimp only
        omega
      · have := ih he' ", "
        omega

/-- The text of an element's value is no longer than the text of the object. -/
theorem utf8ByteSize_valueText_le_text {e : String × BSONValue} {o : BSONObj} (he : e ∈ o) :
    (valueText e.2).utf8ByteSize ≤ (text o).utf8ByteSize := by
  have h := utf8ByteSize_valueText_le he " "
  simp only [text, valueText, String.utf8ByteSize_append]
  omega

example : text [("response", .int 500)] = "\x7b \"response\" : 500 \x7d" := by decide

/-! ## Reading a text back -/

/-- The rest of a string, up to its closing quote, and what follows; `literal` says that the next
character stands for itself. -/
def readString (literal : Bool) : List Char → Option (List Char × List Char)
  | [] => none
  | c :: cs =>
      if literal = false ∧ c = '"' then some ([], cs)
      else if literal = false ∧ c = '\\' then readString true cs
      else (readString false cs).map fun r => (c :: r.1, r.2)

/-- A string is read back. By induction on its characters. -/
theorem readString_escape (s rest : List Char) :
    readString false (s.flatMap escapeChar ++ '"' :: rest) = some (s, rest) := by
  induction s with
  | nil => simp [readString]
  | cons c s ih =>
      rw [List.flatMap_cons, List.append_assoc, escapeChar]
      by_cases hc : c = '"' ∨ c = '\\' ∨ c = '$'
      · rw [if_pos hc]
        simp [readString, ih]
      · rw [if_neg hc]
        have hquote : c ≠ '"' := fun h => hc (Or.inl h)
        have hslash : c ≠ '\\' := fun h => hc (Or.inr (Or.inl h))
        simp [readString, ih, hquote, hslash]

/-- The number at the start, and what follows. -/
def readNat (cs : List Char) : Nat × List Char :=
  (Nat.ofDigitChars 10 (cs.takeWhile Char.isDigit) 0, cs.dropWhile Char.isDigit)

/-- A number is read back, when no digit follows. -/
theorem readNat_toDigits (n : Nat) {rest : List Char} (h : ∀ c ∈ rest.head?, c.isDigit = false) :
    readNat (Nat.toDigits 10 n ++ rest) = (n, rest) := by
  have hdigits : ∀ c ∈ Nat.toDigits 10 n, c.isDigit = true := fun c hc =>
    Nat.isDigit_of_mem_toDigits (by decide) (by decide) hc
  have hrest : rest.takeWhile Char.isDigit = [] ∧ rest.dropWhile Char.isDigit = rest := by
    cases rest with
    | nil => exact ⟨rfl, rfl⟩
    | cons c cs => simp [h c rfl]
  rw [readNat, List.takeWhile_append_of_pos hdigits, List.dropWhile_append_of_pos hdigits, hrest.1,
    hrest.2, List.append_nil, Nat.ofDigitChars_ten_toDigits]

/-- The value of a hexadecimal digit. -/
def hexDigit (c : Char) : Nat := if c.isDigit then c.toNat - 48 else c.toNat - 87

/-- The number with these hexadecimal digits. -/
def readHex (cs : List Char) : Nat := cs.foldl (fun n c => 16 * n + hexDigit c) 0

/-- The ObjectID with the number. -/
def oidOf (n : Nat) : OID := ⟨n % 2 ^ 96, Nat.mod_lt n (Nat.two_pow_pos 96)⟩

/-- A digit is read back. -/
theorem hexDigit_digitChar {n : Nat} (h : n < 16) : hexDigit n.digitChar = n := by
  rcases n with _ | _ | _ | _ | _ | _ | _ | _ | _ | _ | _ | _ | _ | _ | _ | _ | n
  all_goals first | rfl | omega

/-- Hexadecimal digits are read back. By induction on the digits. -/
theorem readHex_toDigits (n : Nat) : readHex (Nat.toDigits 16 n) = n := by
  induction n using Nat.base_induction 16 (by decide) with
  | single m hm =>
      rw [Nat.toDigits_of_lt_base hm]
      simp [readHex, hexDigit_digitChar hm]
  | digit m k hk hm ih =>
      rw [← Nat.toDigits_append_toDigits (by decide) hm hk, Nat.toDigits_of_lt_base hk, readHex,
        List.foldl_append]
      show 16 * readHex (Nat.toDigits 16 m) + hexDigit k.digitChar = _
      rw [ih, hexDigit_digitChar hk]

/-- An ObjectID is read back from its digits; the zeros in front of them add nothing. -/
theorem oidOf_readHex_oidText (o : OID) : oidOf (readHex (oidText o).toList) = o := by
  have hzeros : ∀ n, (List.replicate n '0').foldl (fun n c => 16 * n + hexDigit c) 0 = 0 := by
    intro n
    induction n with
    | zero => rfl
    | succ n ih =>
      rw [List.replicate_succ, List.foldl_cons]
      exact ih
  have hread : readHex (oidText o).toList = o.val := by
    rw [oidText, String.toList_ofList, readHex, List.foldl_append, hzeros]
    exact readHex_toDigits o.val
  rw [hread]
  exact Fin.ext (Nat.mod_eq_of_lt o.isLt)

/-- No digit is a quote. -/
theorem digitChar_ne {n : Nat} (h : n < 16) : n.digitChar ≠ '"' := by
  rcases n with _ | _ | _ | _ | _ | _ | _ | _ | _ | _ | _ | _ | _ | _ | _ | _ | n
  all_goals first | decide | omega

/-- The digits of an ObjectID end at its quote. -/
theorem ne_of_mem_oidText {o : OID} {c : Char} (h : c ∈ (oidText o).toList) : c ≠ '"' := by
  have hdigit : ∀ n, ∀ c ∈ Nat.toDigits 16 n, c ≠ '"' := by
    intro n
    induction n using Nat.base_induction 16 (by decide) with
    | single m hm =>
        intro c hc
        rw [Nat.toDigits_of_lt_base hm, List.mem_singleton] at hc
        rw [hc]
        exact digitChar_ne hm
    | digit m k hk hm ih =>
        intro c hc
        rw [← Nat.toDigits_append_toDigits (by decide) hm hk, Nat.toDigits_of_lt_base hk,
          List.mem_append, List.mem_singleton] at hc
        rcases hc with hc | rfl
        · exact ih c hc
        · exact digitChar_ne hk
  rw [oidText, String.toList_ofList, List.mem_append] at h
  rcases h with h | h
  · rw [List.eq_of_mem_replicate h]
    decide
  · exact hdigit _ c h

mutual

/-- The value at the start, and what follows. -/
def readValue : Nat → List Char → Option (BSONValue × List Char)
  | 0, _ | _, [] => none
  | n + 1, c :: cs =>
      if c = '"' then (readString false cs).map fun r => (.str (String.ofList r.1), r.2)
      else if c = '\x7b' then
        if cs.take 3 = [' ', '"', '$'] then
          -- behind the name `$oid`
          let hex := cs.drop 11
          some (.oid (oidOf (readHex (hex.takeWhile (· ≠ '"')))), (hex.dropWhile (· ≠ '"')).drop 3)
        else (readFields n cs).map fun r => (.obj r.1, r.2)
      else if c = 't' then some (.bool true, cs.drop 3)
      else if c = 'f' then some (.bool false, cs.drop 4)
      else if c = '-' then some (.int (-(readNat cs).1), (readNat cs).2)
      else some (.int (readNat (c :: cs)).1, (readNat (c :: cs)).2)

/-- The elements up to the end of their object, and what follows. -/
def readFields : Nat → List Char → Option (BSONObj × List Char)
  | 0, _ => none
  | n + 1, cs =>
      match cs.dropWhile fun c => c = ' ' ∨ c = ',' with
      | [] => none
      | c :: cs =>
          if c = '\x7d' then some ([], cs)
          else
            (readString false cs).bind fun k =>
              (readValue n (k.2.drop 3)).bind fun v =>
                (readFields n v.2).map fun r => ((String.ofList k.1, v.1) :: r.1, r.2)

end

/-- The text of an ObjectID. -/
theorem toList_oid (o : OID) : (valueText (.oid o)).toList =
    '\x7b' :: ' ' :: '"' :: '$' :: 'o' :: 'i' :: 'd' :: '"' :: ' ' :: ':' :: ' ' :: '"' ::
      ((oidText o).toList ++ ['"', ' ', '\x7d']) := by
  simp [valueText, String.toList_append]

/-- The name of an element in a text, and what follows it. -/
def named (k rest : List Char) : List Char :=
  '"' :: (k.flatMap escapeChar ++ '"' :: ' ' :: ':' :: ' ' :: rest)

@[simp] theorem named_append (k rest rest' : List Char) : named k rest ++ rest' = named k (rest ++ rest') := by
  simp [named]

/-- The length of a name and what follows. -/
theorem length_named (k rest : List Char) :
    (named k rest).length = (k.flatMap escapeChar).length + rest.length + 5 := by
  simp only [named, List.length_cons, List.length_append]
  omega

/-- The text of an element. -/
theorem toList_fields_cons (sep k : String) (v : BSONValue) (rest : List (String × BSONValue)) :
    (fieldsText sep ((k, v) :: rest)).toList =
      sep.toList ++ named k.toList ((valueText v).toList ++ (fieldsText ", " rest).toList) := by
  simp [fieldsText, named, escape, String.toList_append]

/-- Where the digits of an ObjectID end. -/
theorem takeWhile_oidText (o : OID) (rest : List Char) :
    ((oidText o).toList ++ '"' :: rest).takeWhile (· ≠ '"') = (oidText o).toList ∧
      ((oidText o).toList ++ '"' :: rest).dropWhile (· ≠ '"') = '"' :: rest := by
  have h : ∀ c ∈ (oidText o).toList, decide (c ≠ '"') = true := fun c hc =>
    decide_eq_true (ne_of_mem_oidText hc)
  rw [List.takeWhile_append_of_pos h, List.dropWhile_append_of_pos h]
  simp

/-- An integer is read back. -/
theorem readValue_int (n : Int) {fuel : Nat} {rest : List Char}
    (hrest : ∀ c ∈ rest.head?, c.isDigit = false) :
    readValue (fuel + 1) ((toString n).toList ++ rest) = some (.int n, rest) := by
  have htext (m : Nat) : (toString m).toList = Nat.toDigits 10 m := by
    rw [Nat.toString_eq_repr, Nat.toList_repr]
  rcases n with m | m
  · rw [show toString (Int.ofNat m) = toString m from rfl, htext]
    obtain ⟨c, cs, hcs⟩ : ∃ c cs, Nat.toDigits 10 m = c :: cs :=
      List.exists_cons_of_ne_nil Nat.toDigits_ne_nil
    have hdigit : c.isDigit = true :=
      Nat.isDigit_of_mem_toDigits (b := 10) (n := m) (by decide) (by decide) (by simp [hcs])
    have hread := readNat_toDigits m hrest
    rw [hcs, List.cons_append] at hread ⊢
    have hne : ∀ d : Char, d.isDigit = false → c ≠ d := by
      rintro d hd rfl
      rw [hd] at hdigit
      cases hdigit
    rw [readValue, if_neg (hne '"' rfl), if_neg (hne '\x7b' rfl), if_neg (hne 't' rfl),
      if_neg (hne 'f' rfl), if_neg (hne '-' rfl), hread]
    rfl
  · rw [show toString (Int.negSucc m) = "-" ++ toString (m + 1) from rfl, String.toList_append, htext]
    show readValue (fuel + 1) ('-' :: (Nat.toDigits 10 (m + 1) ++ rest)) = _
    rw [readValue, if_neg (by decide), if_neg (by decide), if_neg (by decide), if_neg (by decide),
      if_pos rfl, readNat_toDigits (m + 1) hrest]
    rfl

/-- What follows the value of an element is no digit. -/
theorem isDigit_head_fieldsText (fields : List (String × BSONValue)) (rest : List Char) :
    ∀ c ∈ ((fieldsText ", " fields).toList ++ ' ' :: '\x7d' :: rest).head?, c.isDigit = false := by
  intro c hc
  cases fields with
  | nil =>
      obtain rfl : ' ' = c := Option.some.inj hc
      rfl
  | cons e fields =>
      rw [toList_fields_cons] at hc
      obtain rfl : ',' = c := Option.some.inj hc
      rfl

/-- No name starts like that of an ObjectID. -/
theorem take_fieldsText_ne (fields : List (String × BSONValue)) (rest : List Char) :
    ((fieldsText " " fields).toList ++ ' ' :: '\x7d' :: rest).take 3 ≠ [' ', '"', '$'] := by
  rcases fields with _ | ⟨⟨k, v⟩, fields⟩
  · simp [fieldsText]
  · rw [toList_fields_cons, List.append_assoc, named_append]
    rcases k.toList with _ | ⟨c, cs⟩
    · simp [named]
    · by_cases hc : c = '"' ∨ c = '\\' ∨ c = '$'
      · simp [named, escapeChar, if_pos hc]
      · have hdollar : c ≠ '$' := fun h => hc (Or.inr (Or.inr h))
        simp [named, show escapeChar c = [c] from if_neg hc, hdollar]

/-- The end of an object. -/
theorem readFields_end (n : Nat) (rest : List Char) :
    readFields (n + 1) (' ' :: '\x7d' :: rest) = some ([], rest) := by
  simp [readFields]

/-- An element is read back if its value and the other elements are; the separator in front of it is
passed over. -/
theorem readFields_cons {n : Nat} {sep : List Char} (hsep : ∀ c ∈ sep, c = ' ' ∨ c = ',')
    (k rest : List Char) {v : BSONValue} {more rest' : List Char} {fields : BSONObj}
    (hvalue : readValue n rest = some (v, more)) (hfields : readFields n more = some (fields, rest')) :
    readFields (n + 1) (sep ++ named k rest) = some ((String.ofList k, v) :: fields, rest') := by
  have hdrop : (sep ++ named k rest).dropWhile (fun c => c = ' ' ∨ c = ',') = named k rest := by
    rw [List.dropWhile_append_of_pos fun c hc => decide_eq_true (hsep c hc)]
    rfl
  rw [readFields, hdrop, named]
  dsimp only
  rw [if_neg (by decide), readString_escape]
  simp only [Option.bind_some, List.drop_succ_cons, List.drop_zero, hvalue, hfields, Option.map_some]

/-- A string is read back as a value. -/
theorem readValue_str (s : String) (n : Nat) (rest : List Char) :
    readValue (n + 1) ((valueText (.str s)).toList ++ rest) = some (.str s, rest) := by
  have htext : (valueText (.str s)).toList ++ rest =
      '"' :: (s.toList.flatMap escapeChar ++ '"' :: rest) := by
    simp [valueText, escape, String.toList_append]
  rw [htext, readValue, if_pos rfl, readString_escape, Option.map_some, String.ofList_toList]

/-- A boolean is read back. -/
theorem readValue_bool (b : Bool) (n : Nat) (rest : List Char) :
    readValue (n + 1) ((valueText (.bool b)).toList ++ rest) = some (.bool b, rest) := by
  cases b <;> simp [valueText, readValue]

/-- An ObjectID is read back as a value. -/
theorem readValue_oid (o : OID) (n : Nat) (rest : List Char) :
    readValue (n + 1) ((valueText (.oid o)).toList ++ rest) = some (.oid o, rest) := by
  obtain ⟨htake, hdrop⟩ := takeWhile_oidText o (' ' :: '\x7d' :: rest)
  rw [toList_oid]
  simp only [List.cons_append, List.append_assoc, List.nil_append]
  rw [readValue, if_neg (by decide), if_pos rfl, if_pos (by rfl)]
  simp only [List.drop_succ_cons, List.drop_zero]
  rw [htake, hdrop, oidOf_readHex_oidText]
  rfl

/-- An object is read back if its elements are. -/
theorem readValue_obj {fields : BSONObj} {n : Nat} {rest : List Char}
    (h : readFields n ((fieldsText " " fields).toList ++ ' ' :: '\x7d' :: rest) = some (fields, rest)) :
    readValue (n + 1) ((valueText (.obj fields)).toList ++ rest) = some (.obj fields, rest) := by
  have htext : (valueText (.obj fields)).toList ++ rest =
      '\x7b' :: ((fieldsText " " fields).toList ++ ' ' :: '\x7d' :: rest) := by
    simp [valueText, String.toList_append]
  rw [htext, readValue, if_neg (by decide), if_pos rfl, if_neg (take_fieldsText_ne fields rest), h,
    Option.map_some]

mutual

/-- **Every value is read back**, when no digit follows. By induction on the value. -/
theorem readValue_valueText : (v : BSONValue) → ∀ (n : Nat) (rest : List Char),
    (valueText v).toList.length ≤ n → (∀ c ∈ rest.head?, c.isDigit = false) →
      readValue (n + 1) ((valueText v).toList ++ rest) = some (v, rest)
  | .int m => fun _ _ _ hrest => readValue_int m hrest
  | .str s => fun n rest _ _ => readValue_str s n rest
  | .bool b => fun n rest _ _ => readValue_bool b n rest
  | .oid o => fun n rest _ _ => readValue_oid o n rest
  | .obj fields => by
      intro n rest hn _
      refine readValue_obj (readFields_fieldsText fields n " " rest (Or.inl rfl) ?_)
      simp only [valueText, String.toList_append, List.length_append] at hn
      have : ("\x7b" : String).toList.length = 1 := rfl
      omega

/-- **The elements of an object are read back.** -/
theorem readFields_fieldsText : (fields : List (String × BSONValue)) → ∀ (n : Nat) (sep : String)
    (rest : List Char), sep = " " ∨ sep = ", " → (fieldsText sep fields).toList.length + 1 ≤ n →
      readFields n ((fieldsText sep fields).toList ++ ' ' :: '\x7d' :: rest) = some (fields, rest)
  | [] => by
      intro n sep rest _ hn
      obtain ⟨n, rfl⟩ : ∃ m, n = m + 1 := ⟨n - 1, by omega⟩
      exact readFields_end n rest
  | (k, v) :: fields => by
      intro n sep rest hsep hn
      rw [toList_fields_cons] at hn ⊢
      rw [List.length_append, length_named, List.length_append] at hn
      obtain ⟨n, rfl⟩ : ∃ m, n = m + 2 := ⟨n - 2, by omega⟩
      have hvalue := readValue_valueText v n ((fieldsText ", " fields).toList ++ ' ' :: '\x7d' :: rest)
        (by omega) (isDigit_head_fieldsText fields rest)
      have hfields := readFields_fieldsText fields (n + 1) ", " rest (Or.inr rfl) (by omega)
      have hsep : ∀ c ∈ sep.toList, c = ' ' ∨ c = ',' := by
        rcases hsep with rfl | rfl <;> simp
      have hread := readFields_cons hsep k.toList _ hvalue hfields
      rw [String.ofList_toList] at hread
      rw [List.append_assoc, named_append, List.append_assoc]
      exact hread

end

/-- A printed number has nothing to escape. -/
theorem flatMap_escapeChar_toString (i : Nat) :
    (toString i).toList.flatMap escapeChar = (toString i).toList := by
  rw [Nat.toString_eq_repr, Nat.toList_repr]
  have hplain : ∀ c ∈ Nat.toDigits 10 i, escapeChar c = [c] := by
    intro c hc
    have hdigit := Nat.isDigit_of_mem_toDigits (by decide) (by decide) hc
    rw [escapeChar, if_neg]
    rintro (rfl | rfl | rfl) <;> cases hdigit
  rw [List.flatMap_congr hplain]
  exact List.flatMap_singleton' _

/-- The text of the members of an object, as the elements of it are read. -/
def membersText (i : Nat) (docs : List BSONObj) : List Char :=
  (String.intercalate "," (members i (docs.map text))).toList

/-- The last member. -/
theorem membersText_singleton (i : Nat) (d : BSONObj) :
    membersText i [d] = named (toString i).toList (text d).toList := by
  rw [named, flatMap_escapeChar_toString]
  simp [membersText, members, memberText, String.toList_append]

/-- A member that others follow. -/
theorem membersText_cons (i : Nat) (d d' : BSONObj) (docs : List BSONObj) :
    membersText i (d :: d' :: docs) =
      named (toString i).toList ((text d).toList ++ ',' :: membersText (i + 1) (d' :: docs)) := by
  rw [named, flatMap_escapeChar_toString]
  simp [membersText, members, memberText, String.toList_append]

/-- **The members of an object are read back.** By induction on the list of the objects. -/
theorem readFields_members (d : BSONObj) (docs : List BSONObj) : ∀ (i n : Nat) (sep : Char)
    (rest : List Char), sep = ' ' ∨ sep = ',' → (membersText i (d :: docs)).length ≤ n →
      readFields (n + 1) (sep :: (membersText i (d :: docs) ++ ' ' :: '\x7d' :: rest)) =
        some (indexed i (d :: docs), rest) := by
  induction docs generalizing d with
  | nil =>
      intro i n sep rest hsep hn
      rw [membersText_singleton, length_named] at hn
      obtain ⟨n, rfl⟩ : ∃ m, n = m + 1 := ⟨n - 1, by omega⟩
      have hvalue := readValue_valueText (.obj d) n (' ' :: '\x7d' :: rest)
        (show (text d).toList.length ≤ n by omega) (by simp)
      have hread := @readFields_cons (n + 1) [sep] (by simpa using hsep) (toString i).toList _ _ _ _ _
        hvalue (readFields_end n rest)
      rw [String.ofList_toList] at hread
      rw [membersText_singleton, named_append]
      exact hread
  | cons d' docs ih =>
      intro i n sep rest hsep hn
      rw [membersText_cons, length_named, List.length_append, List.length_cons] at hn
      obtain ⟨n, rfl⟩ : ∃ m, n = m + 1 := ⟨n - 1, by omega⟩
      have hmore := ih d' (i + 1) n ',' rest (Or.inr rfl) (by omega)
      have hvalue := readValue_valueText (.obj d) n
        (',' :: (membersText (i + 1) (d' :: docs) ++ ' ' :: '\x7d' :: rest))
        (show (text d).toList.length ≤ n by omega) (by simp)
      have hread := @readFields_cons (n + 1) [sep] (by simpa using hsep) (toString i).toList _ _ _ _ _
        hvalue hmore
      rw [String.ofList_toList] at hread
      rw [membersText_cons, named_append, List.append_assoc]
      exact hread

/-- The object with the text. -/
def readText (s : String) : Option BSONObj :=
  match readValue (s.toList.length + 1) s.toList with
  | some (.obj o, []) => some o
  | _ => none

/-- **Printed objects are read back**, as the members of an object. -/
theorem readText_objectText {docs : List BSONObj} (hne : docs ≠ []) :
    readText (objectText (docs.map text)) = some (indexed 0 docs) := by
  obtain ⟨d, docs, rfl⟩ := List.exists_cons_of_ne_nil hne
  have htext : (objectText ((d :: docs).map text)).toList =
      '\x7b' :: ' ' :: (membersText 0 (d :: docs) ++ [' ', '\x7d']) := by
    simp [objectText, membersText, String.toList_append]
  have hoid : (' ' :: (membersText 0 (d :: docs) ++ [' ', '\x7d'])).take 3 ≠ [' ', '"', '$'] := by
    cases docs <;> simp [membersText, members, memberText]
  have hfields := readFields_members d docs 0 ((membersText 0 (d :: docs)).length + 3) ' ' []
    (Or.inl rfl) (by omega)
  rw [readText, htext]
  simp only [List.length_cons, List.length_append, List.length_nil]
  rw [readValue, if_neg (by decide), if_pos rfl, if_neg hoid, hfields]
  rfl

end BSON

/-- Whether a document has the field with the value; the lower bound on `_id` is the one
operator. -/
def plainMatch (e : String × BSONValue) (d : Document) : Bool :=
  match e with
  | ("_id", .obj [("$gt", .oid x)]) => decide (x < d.oid)
  | (name, v) => decide (BSON.getField d.toBSON name = some v)

/-- The fields of a document that a fields object lists, and `_id` unless it is dropped. -/
def plainProject (fields : BSONObj) (d : Document) : BSONObj :=
  d.toBSON.filter fun e =>
    if e.1 = "_id" then !dropsId fields else (BSON.getField fields e.1).isSome

/-- The plain projection keeps `_id`, unless it drops it. -/
theorem objectID_plainProject (f : BSONObj) (d : Document) :
    BSON.objectID (plainProject f d) = if dropsId f then none else some d.oid := by
  by_cases h : dropsId f
  · have hnone : ∀ e ∈ plainProject f d, (e.1 == "_id") = false := by
      intro e he
      have hk := (List.mem_filter.mp he).2
      by_cases hid : e.1 = "_id"
      · simp [hid, h] at hk
      · simpa using hid
    have hfind : (plainProject f d).find? (fun e => e.1 == "_id") = none := by
      rw [List.find?_eq_none]
      intro e he
      simp [hnone e he]
    simp [BSON.objectID, BSON.getField, hfind, h]
  · simp [plainProject, Document.toBSON, BSON.objectID, BSON.getField, h]

/-- A document of the sample collection. -/
def sampleDocument (i : OID) : Document := ⟨i, [("brand", .str "Nokia")]⟩

/-- The error object of a query that is refused. -/
def plainRefusal : BSONObj := [("$err", .str "bad skip value in query"), ("code", .int 16256)]

/-- A query. -/
def plainFind (coll : List Document) (conditions : BSONObj) (sort : MongoSort)
    (nToReturn nToSkip : Int) (fields : Option BSONObj) : List BSONObj :=
  if 0 ≤ nToSkip then
    (Mongo.limitTo nToReturn ((Mongo.sortById sort (coll.filter fun d =>
      conditions.all fun e => plainMatch e d)).drop nToSkip.toNat)).map
        (Mongo.viewBy plainProject fields)
  else [plainRefusal]

/-- The plain driver. -/
def Mongo.plain : Mongo where
  jsonString := BSON.text
  fromjson := BSON.readText
  fromjson_objectText _ hne := BSON.readText_objectText hne
  matchElement := plainMatch
  gt_id _ _ := rfl
  project := plainProject
  project_id := objectID_plainProject
  find := plainFind
  find_of_nonneg _ _ _ _ _ _ hskip := if_pos hskip
  find_of_neg _ _ _ _ _ _ hskip := ⟨plainRefusal, if_neg (not_le.mpr hskip), by decide⟩

end Zbroker
