import CodeAtlas.Format.Json
import CodeAtlas.Proofs.Splitting
import Mathlib.Data.List.Basic

/-!
# Indented JSON text has one reading

Two values with the same indented text at the same depth are equal. The argument peels one value
off the front of a longer text. The first character tells the constructor, the escapes of a string
are taken back one by one up to the quote that ends it, and after an entry of a container comes a
comma or, behind the last one, a line break. Only a number has no end of its own, so what follows a
value is assumed not to start with a digit.
-/

namespace CodeAtlas

namespace Json

/-- The text does not go on with a digit. -/
def EndsNumber (rest : List Char) : Prop := ∀ c ∈ rest.head?, c.isDigit = false

/-- The end of a text ends a number. -/
theorem endsNumber_nil : EndsNumber [] := nofun

/-- A character that is no digit ends a number. -/
theorem endsNumber_cons {c : Char} (hc : c.isDigit = false) (rest : List Char) :
    EndsNumber (c :: rest) := by
  intro d hd
  rwa [← Option.some.inj hd]

/-- No other value has a text that starts with the text of this one, so both what is written and what
follows it are determined. -/
def ReadsBack {α : Type} (write : α → String) (a : α) : Prop :=
  ∀ b rest rest', EndsNumber rest → EndsNumber rest' →
    (write a).toList ++ rest = (write b).toList ++ rest' → a = b ∧ rest = rest'

section Strings

/-- The value of a hexadecimal digit. -/
def digitValue (c : Char) : Nat := if c.isDigit then c.toNat - 48 else c.toNat - 87

/-- One character of a string, taken off the front of its escaped text. -/
def takeEscape? : List Char → Option (Char × List Char)
  | '\\' :: 'b' :: rest => some (Char.ofNat 8, rest)
  | '\\' :: 't' :: rest => some (Char.ofNat 9, rest)
  | '\\' :: 'n' :: rest => some (Char.ofNat 10, rest)
  | '\\' :: 'f' :: rest => some (Char.ofNat 12, rest)
  | '\\' :: 'r' :: rest => some (Char.ofNat 13, rest)
  | '\\' :: 'u' :: _ :: _ :: high :: low :: rest =>
    some (Char.ofNat (16 * digitValue high + digitValue low), rest)
  | '\\' :: c :: rest => some (c, rest)
  | c :: rest => if c = '\x22' then none else some (c, rest)
  | [] => none

/-- The value of a written hexadecimal digit. -/
theorem digitValue_digit : ∀ n < 16, digitValue (digit n) = n := by decide

/-- Escaping a character can be taken back, whatever follows. -/
theorem takeEscape?_escapeChar (c : Char) (rest : List Char) :
    takeEscape? (escapeChar c ++ rest) = some (c, rest) := by
  have hofNat {n : Nat} (h : c.toNat = n) : Char.ofNat n = c := by rw [← h, Char.ofNat_toNat]
  unfold escapeChar
  by_cases hquote : c = '\x22'
  · rw [if_pos hquote, hquote]; rfl
  by_cases hslash : c = '\\'
  · rw [if_neg hquote, if_pos hslash, hslash]; rfl
  rw [if_neg hquote, if_neg hslash]
  by_cases hback : c.toNat = 8
  · rw [if_pos hback, ← hofNat hback]; rfl
  by_cases htab : c.toNat = 9
  · rw [if_neg hback, if_pos htab, ← hofNat htab]; rfl
  rw [if_neg hback, if_neg htab]
  by_cases hline : c.toNat = 10
  · rw [if_pos hline, ← hofNat hline]; rfl
  by_cases hfeed : c.toNat = 12
  · rw [if_neg hline, if_pos hfeed, ← hofNat hfeed]; rfl
  by_cases hreturn : c.toNat = 13
  · rw [if_neg hline, if_neg hfeed, if_pos hreturn, ← hofNat hreturn]; rfl
  rw [if_neg hline, if_neg hfeed, if_neg hreturn]
  by_cases hcontrol : c.toNat < 32
  · have hvalue : 16 * digitValue (digit (c.toNat / 16)) + digitValue (digit (c.toNat % 16)) =
        c.toNat := by
      rw [digitValue_digit _ (by omega), digitValue_digit _ (by omega)]
      exact Nat.div_add_mod _ _
    rw [if_pos hcontrol]
    simp [takeEscape?, hvalue]
  · rw [if_neg hcontrol]
    simp [takeEscape?, hquote, hslash]

/-- The escaped text of a string, up to the closing quote, has one reading. -/
theorem escaped_append_inj {s t rest rest' : List Char}
    (h : s.flatMap escapeChar ++ '\x22' :: rest = t.flatMap escapeChar ++ '\x22' :: rest') :
    s = t ∧ rest = rest' := by
  induction s generalizing t with
  | nil =>
    cases t with
    | nil => exact ⟨rfl, (List.cons.inj h).2⟩
    | cons d t =>
      rw [List.flatMap_cons, List.append_assoc] at h
      have htake := congrArg takeEscape? h
      rw [takeEscape?_escapeChar] at htake
      cases htake
  | cons c s ih =>
    rw [List.flatMap_cons, List.append_assoc] at h
    have htake := congrArg takeEscape? h
    rw [takeEscape?_escapeChar] at htake
    cases t with
    | nil => cases htake
    | cons d t =>
      rw [List.flatMap_cons, List.append_assoc, takeEscape?_escapeChar] at htake
      obtain ⟨rfl, hmore⟩ := Prod.mk.inj (Option.some.inj htake)
      obtain ⟨rfl, hrest⟩ := ih hmore
      exact ⟨rfl, hrest⟩

/-- The characters of a written string. -/
theorem toList_quote (s : String) :
    (quote s).toList = '\x22' :: (s.toList.flatMap escapeChar ++ ['\x22']) := by
  simp [quote, String.toList_append]

/-- A written string determines the string and what follows. -/
theorem quote_append_inj {s t : String} {rest rest' : List Char}
    (h : (quote s).toList ++ rest = (quote t).toList ++ rest') : s = t ∧ rest = rest' := by
  rw [toList_quote, toList_quote, List.cons_append, List.cons_append, List.append_assoc,
    List.append_assoc] at h
  obtain ⟨hs, hrest⟩ := escaped_append_inj (List.cons.inj h).2
  exact ⟨String.toList_inj.mp hs, hrest⟩

end Strings

section Numbers

/-- The characters of a written number are its digits. -/
theorem toList_repr (n : Nat) : n.repr.toList = Nat.toDigits 10 n := by
  rw [Nat.repr_eq_ofList_toDigits, String.toList_ofList]

/-- A written number holds digits only. -/
theorem isDigit_of_mem_repr {n : Nat} {c : Char} (h : c ∈ n.repr.toList) : c.isDigit = true := by
  rw [toList_repr] at h
  exact Nat.isDigit_of_mem_toDigits (by decide) (by decide) h

/-- A number is as long as its digits go on. -/
theorem takeWhile_repr_append {n : Nat} {rest : List Char} (hrest : EndsNumber rest) :
    (n.repr.toList ++ rest).takeWhile Char.isDigit = n.repr.toList := by
  rw [List.takeWhile_append_of_pos fun c hc => isDigit_of_mem_repr hc]
  cases rest with
  | nil => exact List.append_nil _
  | cons c rest =>
    rw [List.takeWhile_cons_of_neg (by simp [hrest c rfl]), List.append_nil]

/-- Digits determine a number. -/
theorem readsBack_repr (n : Nat) : ReadsBack Nat.repr n := by
  intro m rest rest' hrest hrest' h
  have hdigits := congrArg (List.takeWhile Char.isDigit) h
  rw [takeWhile_repr_append hrest, takeWhile_repr_append hrest', toList_repr, toList_repr] at hdigits
  have hvalue := congrArg (fun digits => Nat.ofDigitChars 10 digits 0) hdigits
  simp only [Nat.ofDigitChars_toDigits (b := 10) (by decide) (by decide)] at hvalue
  rw [hvalue] at h
  exact ⟨hvalue, List.append_cancel_left h⟩

end Numbers

section Containers

variable {α : Type} {entry : α → String}

/-- The entries of a container after the first one, and its end. -/
def blockTail (depth : Nat) (last : String) (entries : List String) : List Char :=
  (entries.flatMap fun e => ",\n".toList ++ (indent (depth + 1)).toList ++ e.toList) ++
    '\n' :: ((indent depth).toList ++ last.toList)

/-- A container without entries. -/
theorem toList_block_nil (depth : Nat) (first last : String) :
    (block depth first last []).toList = first.toList ++ last.toList := by
  simp [block]

/-- A container with a first entry. -/
theorem toList_block_cons (depth : Nat) (first last e : String) (entries : List String) :
    (block depth first last (e :: entries)).toList =
      first.toList ++ '\n' :: ((indent (depth + 1)).toList ++
        (e.toList ++ blockTail depth last entries)) := by
  simp [block, blockTail, Text.toList_joinWith_cons, List.flatMap_map]

/-- The entries of a block follow one another on lines of their own. -/
theorem blockTail_cons (depth : Nat) (last e : String) (entries : List String) :
    blockTail depth last (e :: entries) =
      ',' :: '\n' :: ((indent (depth + 1)).toList ++ (e.toList ++ blockTail depth last entries)) := by
  simp [blockTail]

/-- What follows an entry of a block ends a number. -/
theorem endsNumber_blockTail (depth : Nat) (last : String) (entries : List String)
    (rest : List Char) : EndsNumber (blockTail depth last entries ++ rest) := by
  cases entries with
  | nil =>
    rw [blockTail, List.flatMap_nil, List.nil_append, List.cons_append]
    exact endsNumber_cons (by decide) _
  | cons e entries =>
    rw [blockTail_cons, List.cons_append]
    exact endsNumber_cons (by decide) _

/-- The entries after the first one have one reading, when each entry has. -/
theorem blockTail_append_inj (depth : Nat) (last : String) {as bs : List α}
    {rest rest' : List Char} (has : ∀ a ∈ as, ReadsBack entry a)
    (h : blockTail depth last (as.map entry) ++ rest =
      blockTail depth last (bs.map entry) ++ rest') : as = bs ∧ rest = rest' := by
  -- A comma comes before an entry and a line break before the end.
  induction as generalizing bs with
  | nil =>
    cases bs with
    | nil => exact ⟨rfl, List.append_cancel_left h⟩
    | cons b bs => simp [blockTail] at h
  | cons a as ih =>
    cases bs with
    | nil => simp [blockTail] at h
    | cons b bs =>
      simp only [List.map_cons, blockTail_cons, List.cons_append, List.append_assoc, List.cons.injEq,
        true_and, List.append_cancel_left_eq] at h
      obtain ⟨rfl, hmore⟩ := has a List.mem_cons_self b _ _ (endsNumber_blockTail _ _ _ _)
        (endsNumber_blockTail _ _ _ _) h
      obtain ⟨rfl, hrest⟩ := ih (fun c hc => has c (List.mem_cons_of_mem a hc)) hmore
      exact ⟨rfl, hrest⟩

/-- A container has one reading, when each entry has. -/
theorem readsBack_block (depth : Nat) (first last : String) {close : Char}
    (hlast : last.toList = [close]) (hclose : close ≠ '\n') {as : List α}
    (has : ∀ a ∈ as, ReadsBack entry a) :
    ReadsBack (fun as => block depth first last (as.map entry)) as := by
  intro bs rest rest' _ _ h
  cases as with
  | nil =>
    cases bs with
    | nil => exact ⟨rfl, List.append_cancel_left h⟩
    | cons b bs => simp [toList_block_nil, toList_block_cons, hlast, hclose] at h
  | cons a as =>
    cases bs with
    | nil => simp [toList_block_nil, toList_block_cons, hlast, hclose.symm] at h
    | cons b bs =>
      simp only [List.map_cons, toList_block_cons, List.cons_append, List.append_assoc,
        List.cons.injEq, true_and, List.append_cancel_left_eq] at h
      obtain ⟨rfl, hmore⟩ := has a List.mem_cons_self b _ _ (endsNumber_blockTail _ _ _ _)
        (endsNumber_blockTail _ _ _ _) h
      obtain ⟨rfl, hrest⟩ :=
        blockTail_append_inj depth last (fun c hc => has c (List.mem_cons_of_mem a hc)) hmore
      exact ⟨rfl, hrest⟩

end Containers

section Values

/-- The items of a list are written one by one. -/
theorem prettyItems_eq_map (depth : Nat) (items : List Json) :
    prettyItems depth items = items.map (pretty depth) := by
  induction items with
  | nil => rfl
  | cons v items ih => rw [prettyItems, ih, List.map_cons]

/-- The text of a field at a depth. -/
def prettyField (depth : Nat) (field : String × Json) : String :=
  quote field.1 ++ ": " ++ pretty depth field.2

/-- The fields of an object are written one by one. -/
theorem prettyFields_eq_map (depth : Nat) (fields : List (String × Json)) :
    prettyFields depth fields = fields.map (prettyField depth) := by
  induction fields with
  | nil => rfl
  | cons field fields ih => rw [prettyFields, ih, List.map_cons, prettyField]

/-- A field has one reading, when its value has. -/
theorem readsBack_prettyField {depth : Nat} {field : String × Json}
    (hvalue : ReadsBack (pretty depth) field.2) : ReadsBack (prettyField depth) field := by
  intro other rest rest' hrest hrest' h
  simp only [prettyField, String.toList_append, List.append_assoc] at h
  obtain ⟨hkey, hmore⟩ := quote_append_inj h
  obtain ⟨hsame, heq⟩ := hvalue _ _ _ hrest hrest' (List.append_cancel_left hmore)
  exact ⟨Prod.ext hkey hsame, heq⟩

/-- The number of the constructor whose texts start with a character. -/
def leadCtor (c : Char) : Nat :=
  if c = 'n' then 0
  else if c = 't' ∨ c = 'f' then 1
  else if c = '\x22' then 3
  else if c = '[' then 4
  else if c = '\x7b' then 5
  else 2

/-- Only a number starts with a digit. -/
theorem leadCtor_of_isDigit {c : Char} (hdigit : c.isDigit = true) : leadCtor c = 2 := by
  have hne {d : Char} (hd : d.isDigit = false) : c ≠ d := by
    rintro rfl
    rw [hd] at hdigit
    cases hdigit
  simp [leadCtor, hne (d := 'n') (by decide), hne (d := 't') (by decide),
    hne (d := 'f') (by decide), hne (d := '\x22') (by decide), hne (d := '[') (by decide),
    hne (d := '\x7b') (by decide)]

/-- The first character of a text tells the constructor. -/
theorem map_leadCtor_head? (depth : Nat) (v : Json) :
    (pretty depth v).toList.head?.map leadCtor = some v.ctorIdx := by
  have hblock (first last : String) (c : Char) (hfirst : first.toList = [c])
      (entries : List String) : (block depth first last entries).toList.head? = some c := by
    cases entries with
    | nil => simp [toList_block_nil, hfirst]
    | cons e entries => simp [toList_block_cons, hfirst]
  cases v with
  | null => simp [pretty]; rfl
  | bool b => cases b <;> simp [pretty] <;> rfl
  | nat n =>
    have hne : n.repr.toList ≠ [] := by
      rw [toList_repr]
      exact Nat.toDigits_ne_nil
    obtain ⟨c, more, hrepr⟩ := List.exists_cons_of_ne_nil hne
    have hdigit : c.isDigit = true := isDigit_of_mem_repr (hrepr ▸ List.mem_cons_self)
    rw [pretty, hrepr, List.head?_cons, Option.map_some, leadCtor_of_isDigit hdigit]
    rfl
  | str s => rw [pretty, toList_quote]; rfl
  | arr items => rw [pretty, hblock "[" "]" '[' rfl]; rfl
  | obj fields => rw [pretty, hblock "\x7b" "\x7d" '\x7b' rfl]; rfl

/-- Values with texts that start alike have the same constructor. -/
theorem ctorIdx_eq_of_append {depth : Nat} {v w : Json} {rest rest' : List Char}
    (h : (pretty depth v).toList ++ rest = (pretty depth w).toList ++ rest') :
    v.ctorIdx = w.ctorIdx := by
  have hlead (u : Json) (more : List Char) :
      ((pretty depth u).toList ++ more).head?.map leadCtor = some u.ctorIdx := by
    obtain ⟨c, hc, hctor⟩ := Option.map_eq_some_iff.mp (map_leadCtor_head? depth u)
    rw [List.head?_append, hc, Option.some_or, Option.map_some, hctor]
  have hfirst := congrArg (fun text => text.head?.map leadCtor) h
  exact Option.some.inj ((hlead v rest).symm.trans (hfirst.trans (hlead w rest')))

/-- The null value is read back. -/
theorem readsBack_null (depth : Nat) : ReadsBack (pretty depth) null := by
  intro w rest rest' _ _ h
  have hctor := ctorIdx_eq_of_append h
  cases w with
  | null => exact ⟨rfl, List.append_cancel_left h⟩
  | _ => cases hctor

/-- Truth values are read back. -/
theorem readsBack_bool (depth : Nat) (b : Bool) : ReadsBack (pretty depth) (bool b) := by
  intro w rest rest' _ _ h
  have hctor := ctorIdx_eq_of_append h
  cases w with
  | bool b' =>
    cases b <;> cases b' <;> simp [pretty] at h
    all_goals exact ⟨rfl, h⟩
  | _ => cases hctor

/-- Numbers are read back: their text ends where the digits do. -/
theorem readsBack_nat (depth n : Nat) : ReadsBack (pretty depth) (nat n) := by
  intro w rest rest' hrest hrest' h
  have hctor := ctorIdx_eq_of_append h
  cases w with
  | nat m =>
    rw [pretty, pretty] at h
    obtain ⟨rfl, hmore⟩ := readsBack_repr n m rest rest' hrest hrest' h
    exact ⟨rfl, hmore⟩
  | _ => cases hctor

/-- Strings are read back. -/
theorem readsBack_str (depth : Nat) (s : String) : ReadsBack (pretty depth) (str s) := by
  intro w rest rest' _ _ h
  have hctor := ctorIdx_eq_of_append h
  cases w with
  | str t =>
    rw [pretty, pretty] at h
    obtain ⟨rfl, hmore⟩ := quote_append_inj h
    exact ⟨rfl, hmore⟩
  | _ => cases hctor

/-- Lists are read back if their items are. -/
theorem readsBack_arr {depth : Nat} {items : List Json}
    (hitems : ∀ item ∈ items, ReadsBack (pretty (depth + 1)) item) :
    ReadsBack (pretty depth) (arr items) := by
  intro w rest rest' hrest hrest' h
  have hctor := ctorIdx_eq_of_append h
  cases w with
  | arr items' =>
    rw [pretty, pretty, prettyItems_eq_map, prettyItems_eq_map] at h
    obtain ⟨rfl, hmore⟩ := readsBack_block depth "[" "]" rfl (by decide) hitems _ _ _ hrest hrest' h
    exact ⟨rfl, hmore⟩
  | _ => cases hctor

/-- Objects are read back if the values of their fields are. -/
theorem readsBack_obj {depth : Nat} {fields : List (String × Json)}
    (hfields : ∀ field ∈ fields, ReadsBack (pretty (depth + 1)) field.2) :
    ReadsBack (pretty depth) (obj fields) := by
  intro w rest rest' hrest hrest' h
  have hctor := ctorIdx_eq_of_append h
  cases w with
  | obj fields' =>
    rw [pretty, pretty, prettyFields_eq_map, prettyFields_eq_map] at h
    obtain ⟨rfl, hmore⟩ := readsBack_block depth "\x7b" "\x7d" rfl (by decide)
      (fun field hfield => readsBack_prettyField (hfields field hfield)) _ _ _ hrest hrest' h
    exact ⟨rfl, hmore⟩
  | _ => cases hctor

/-- Every value can be read off the front of a longer text. -/
theorem readsBack_pretty (depth : Nat) : (v : Json) → ReadsBack (pretty depth) v
  | null => readsBack_null depth
  | bool b => readsBack_bool depth b
  | nat n => readsBack_nat depth n
  | str s => readsBack_str depth s
  | arr items => readsBack_arr fun item _ => readsBack_pretty (depth + 1) item
  | obj fields => readsBack_obj fun (_, value) _ => readsBack_pretty (depth + 1) value
termination_by v => v
decreasing_by
  · rename_i hitem
    have hlt := List.sizeOf_lt_of_mem hitem
    simp only [arr.sizeOf_spec]
    omega
  · rename_i hfield
    have hlt := List.sizeOf_lt_of_mem hfield
    simp only [obj.sizeOf_spec, Prod.mk.sizeOf_spec] at hlt ⊢
    omega

/-- Values with the same text at the same depth are equal. -/
theorem pretty_inj {depth : Nat} {v w : Json} : pretty depth v = pretty depth w ↔ v = w := by
  constructor
  · intro h
    exact (readsBack_pretty depth v w [] [] endsNumber_nil endsNumber_nil (by rw [h])).1
  · rintro rfl
    rfl

end Values

end Json

end CodeAtlas
