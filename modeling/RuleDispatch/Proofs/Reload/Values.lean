import Mathlib
import RuleDispatch.Proofs.Reload.Tokens

/-! # Values read back from their own text

Reading a value from the text that is written of it gives the value with each of its numbers read
back on its own, and the fields of its objects in order. Only a number can come back different, and
only nesting can keep a value from being read.

* `Number.reread?`, `Json.reread?` — what a number and a value are read back as.
* `Json.nesting` — how deep lists and objects nest.
* `Json.readsBack`, `Json.read_text` — reading what was written.
* `Json.lookup_insertField`, `Json.ofFields_of_inOrder` — the fields of objects.
* `Json.Tidy`, `Json.numbers`, `Json.reread?_eq_some_iff` — when a value comes back as it is. -/

namespace RuleDispatch

/-! ## 1. What values are read back as -/

/-- What a number is **read back as** from its own text, if that is the text of a number. -/
def Number.reread? (n : Number) : Option Number :=
  (Json.readNumber (Json.writeNumber n)).toOption.map Prod.fst

/-- What is read if anything is, **is read**. -/
theorem eq_ok_of_toOption {ε α : Type} {x : Except ε α} {a : α} (h : x.toOption = some a) :
    x = .ok a := by
  cases x with
  | error fault => cases h
  | ok b => exact congrArg Except.ok (Option.some.inj h)

namespace Json

mutual

/-- What a value is **read back as**: each number as it is read back, the fields of objects in
order. -/
def reread? : Json → Option Json
  | null => some null
  | bool b => some (bool b)
  | num n => n.reread?.map num
  | str s => some (str s)
  | arr items => (rereadItems? items).map arr
  | obj fields => (rereadFields? fields).map ofFields

/-- What the items of a list are read back as. -/
def rereadItems? : List Json → Option (List Json)
  | [] => some []
  | item :: rest => do return (← reread? item) :: (← rereadItems? rest)

/-- What the fields of an object are read back as. -/
def rereadFields? : List (String × Json) → Option (List (String × Json))
  | [] => some []
  | (name, value) :: rest => do return (name, ← reread? value) :: (← rereadFields? rest)

end

mutual

/-- How deep lists and objects **nest** in a value. -/
def nesting : Json → Nat
  | null | bool _ | num _ | str _ => 0
  | arr items => nestingOfItems items + 1
  | obj fields => nestingOfFields fields + 1

/-- The deepest nesting among items. -/
def nestingOfItems : List Json → Nat
  | [] => 0
  | item :: rest => max (nesting item) (nestingOfItems rest)

/-- The deepest nesting among fields. -/
def nestingOfFields : List (String × Json) → Nat
  | [] => 0
  | (_, value) :: rest => max (nesting value) (nestingOfFields rest)

end

/-! ## 2. What values begin with -/

/-- What the text of a value **begins with**. -/
def opensValue (c : Char) : Bool :=
  c = 'n' || c = 't' || c = 'f' || c = '"' || c = '[' || c = '{' || opensNumeral c

/-- No value begins with a blank or with a closing mark. -/
theorem opensValue_apart {c : Char} (h : opensValue c = true) :
    isSpace c = false ∧ c ≠ ']' ∧ c ≠ '}' := by
  have apart (d : Char) (other : opensValue d = false) : c ≠ d := by
    rintro rfl
    rw [h] at other
    cases other
  refine ⟨?_, apart ']' (by decide), apart '}' (by decide)⟩
  simp [isSpace, apart ' ' (by decide), apart '\n' (by decide), apart '\t' (by decide),
    apart '\r' (by decide)]

/-- The text of a value **begins like one**. -/
theorem write_opens (v : Json) : ∃ c more, v.write = c :: more ∧ opensValue c = true := by
  cases v with
  | null => exact ⟨_, _, rfl, by decide⟩
  | bool b => cases b <;> exact ⟨_, _, rfl, by decide⟩
  | num n =>
    obtain ⟨c, more, text, opens⟩ := (isNumeral_writeNumber n).opens
    exact ⟨c, more, text, by simp [opensValue, opens]⟩
  | str s => exact ⟨_, _, rfl, by decide⟩
  | arr items => exact ⟨_, _, rfl, by decide⟩
  | obj fields => exact ⟨_, _, rfl, by decide⟩

/-- No blank is skipped where none is. -/
theorem skipSpaces_cons {c : Char} (h : isSpace c = false) (text : List Char) :
    skipSpaces (c :: text) = c :: text := by
  rw [skipSpaces, List.dropWhile_cons_of_neg]
  simp [h]

/-- What follows an item is **closed**. -/
theorem closed_writeMoreItems (items : List Json) (rest : List Char) :
    Closed (writeMoreItems items ++ rest) := by
  cases items with
  | nil => exact closed_cons rfl rest
  | cons => exact closed_cons rfl _

/-- What follows a field is closed. -/
theorem closed_writeMoreFields (fields : List (String × Json)) (rest : List Char) :
    Closed (writeMoreFields fields ++ rest) := by
  cases fields with
  | nil => exact closed_cons rfl rest
  | cons => exact closed_cons rfl _

/-! ## 3. One value at the front -/

/-- Reading one thing after another **succeeds with both**. -/
theorem toOption_bind {ε α β : Type} (x : Except ε α) (f : α → Except ε β) :
    (x >>= f).toOption = x.toOption.bind fun a => (f a).toOption := by
  cases x <;> rfl

theorem ok_bind {ε α β : Type} (a : α) (f : α → Except ε β) : (Except.ok a >>= f) = f a := rfl

/-- A value that opens like a number is **read as one**. -/
theorem readValue_of_opensNumeral {c : Char} (h : opensNumeral c = true) (fuel depth : Nat)
    (text : List Char) :
    (readValue (fuel + 1) depth (c :: text)).toOption
      = (readNumber (c :: text)).toOption.map fun read => (num read.1, read.2) := by
  have apart (d : Char) (other : opensNumeral d = false) : c ≠ d := by
    rintro rfl
    rw [h] at other
    cases other
  have blank : isSpace c = false := (opensValue_apart (by simp [opensValue, h])).1
  have sign : c = '-' ∨ c.isDigit = true := by simpa [opensNumeral] using h
  simp only [readValue, skipSpaces_cons blank, if_neg (apart 'n' (by decide)),
    if_neg (apart 't' (by decide)), if_neg (apart 'f' (by decide)), if_pos sign]
  cases readNumber (c :: text) <;> rfl

/-- After a quote a value is read as **text**. -/
theorem readValue_quote (fuel depth : Nat) (text : List Char) :
    (readValue (fuel + 1) depth ('"' :: text)).toOption
      = (readText fuel text).toOption.map fun read => (str read.1, read.2) := by
  rw [readValue, skipSpaces_cons (by decide)]
  simp only [if_neg (by decide : ¬ '"' = 'n')]
  cases readText fuel text <;> rfl

/-- After a bracket a value is read as a **list**, if there is room for one. -/
theorem readValue_bracket {depth : Nat} (h : 1 < depth) (fuel : Nat) (text : List Char) :
    (readValue (fuel + 1) depth ('[' :: text)).toOption
      = (readItems fuel (depth - 1) text).toOption.map fun read => (arr read.1, read.2) := by
  have room : ¬depth ≤ 1 := Nat.not_le.mpr h
  rw [readValue, skipSpaces_cons (by decide)]
  simp only [if_neg room]
  cases readItems fuel (depth - 1) text <;> rfl

/-- After a brace a value is read as an **object**, if there is room for one. -/
theorem readValue_brace {depth : Nat} (h : 1 < depth) (fuel : Nat) (text : List Char) :
    (readValue (fuel + 1) depth ('{' :: text)).toOption
      = (readFields fuel (depth - 1) text).toOption.map fun read => (ofFields read.1, read.2) := by
  have room : ¬depth ≤ 1 := Nat.not_le.mpr h
  rw [readValue, skipSpaces_cons (by decide)]
  simp only [if_neg room]
  cases readFields fuel (depth - 1) text <;> rfl

/-! ## 4. Lists and objects at the front -/

/-- A value **reads back** from the front of any text: whatever closes it, with room for its nesting
and with steps for the whole text. -/
def ReadsBack (v : Json) : Prop :=
  ∀ fuel depth rest, Closed rest → v.nesting < depth →
    3 * (v.write ++ rest).length + 1 ≤ fuel →
      (readValue fuel depth (v.write ++ rest)).toOption = v.reread?.map (·, rest)

/-- A list or an object that **closes** goes on with nothing. -/
@[simp] theorem readSeparator_close (close : Char) (unfinished unexpected : Cause)
    (rest : List Char) : readSeparator close unfinished unexpected (close :: rest) = .ok none := by
  simp [readSeparator]

/-- After a comma the next entry **is what stands there**, if it opens like one. -/
theorem readSeparator_comma {close c : Char} (mark : close ≠ ',') (blank : isSpace c = false)
    (other : c ≠ close) (unfinished unexpected : Cause) (text : List Char) :
    readSeparator close unfinished unexpected (',' :: c :: text) = .ok (some (c :: text)) := by
  simp [readSeparator, mark.symm, skipSpaces_cons blank, other]

/-- What **follows an item** is read as an end or as the text of the next item. -/
theorem readSeparator_writeMoreItems (items : List Json) (rest : List Char) :
    readSeparator ']' .endInList .expectedListEnd (writeMoreItems items ++ rest) = .ok
      (match items with
        | [] => none
        | item :: others => some (item.write ++ (writeMoreItems others ++ rest))) := by
  cases items with
  | nil => exact readSeparator_close ..
  | cons item others =>
    obtain ⟨c, more, text, opens⟩ := item.write_opens
    obtain ⟨blank, other, -⟩ := opensValue_apart opens
    simp only [writeMoreItems, List.cons_append, text, List.append_assoc]
    exact readSeparator_comma (by decide) blank other ..

/-- No blank stands between an entry and what follows it. -/
theorem skipSpaces_of_closed {text : List Char} (h : Closed text) : skipSpaces text = text := by
  cases text with
  | nil => rfl
  | cons c text =>
    refine skipSpaces_cons ?_ text
    rcases isClosing_iff.mp (h c rfl) with rfl | rfl | rfl <;> rfl

/-- Items are read back **the first and then the others**. -/
theorem rereadItems?_cons (item : Json) (items : List Json) :
    rereadItems? (item :: items)
      = item.reread?.bind fun v => (rereadItems? items).map (v :: ·) := by
  rw [rereadItems?]
  cases item.reread? with
  | none => rfl
  | some v => cases rereadItems? items <;> rfl

/-- The items of a list **read back one by one**, if each reads back. -/
theorem readMoreItems_write {item : Json} {items : List Json}
    (each : ∀ v ∈ item :: items, ReadsBack v) {fuel depth : Nat} {rest : List Char}
    (shallow : nestingOfItems (item :: items) < depth)
    (enough : 3 * (item.write ++ (writeMoreItems items ++ rest)).length + 2 ≤ fuel) :
    (readMoreItems fuel depth (item.write ++ (writeMoreItems items ++ rest))).toOption
      = (rereadItems? (item :: items)).map (·, rest) := by
  induction items generalizing item fuel with
  | nil =>
    obtain ⟨fuel, rfl⟩ := Nat.exists_eq_add_one_of_ne_zero (by omega : fuel ≠ 0)
    have first := each item List.mem_cons_self fuel depth _ (closed_writeMoreItems [] rest)
      (by simpa [nestingOfItems] using shallow) (by omega)
    rw [readMoreItems, toOption_bind, first, rereadItems?_cons]
    cases item.reread? with
    | none => rfl
    | some v =>
      simp only [Option.map_some, Option.bind_some, skipSpaces_of_closed (closed_writeMoreItems _ _),
        readSeparator_writeMoreItems]
      rfl
  | cons next others ih =>
    obtain ⟨fuel, rfl⟩ := Nat.exists_eq_add_one_of_ne_zero (by omega : fuel ≠ 0)
    have shallow' : nesting item < depth ∧ nestingOfItems (next :: others) < depth := by
      simpa [nestingOfItems] using shallow
    have first := each item List.mem_cons_self fuel depth _
      (closed_writeMoreItems (next :: others) rest) shallow'.1 (by omega)
    -- the comma and the item before it leave steps enough for the others
    have enough' : 3 * (next.write ++ (writeMoreItems others ++ rest)).length + 2 ≤ fuel := by
      simp only [writeMoreItems, List.length_append, List.length_cons] at enough ⊢
      omega
    have later := ih (fun v member => each v (List.mem_cons_of_mem _ member)) shallow'.2 enough'
    rw [readMoreItems, toOption_bind, first, rereadItems?_cons]
    cases item.reread? with
    | none => rfl
    | some v =>
      simp only [Option.map_some, Option.bind_some, skipSpaces_of_closed (closed_writeMoreItems _ _),
        readSeparator_writeMoreItems]
      refine (toOption_bind (readMoreItems fuel depth _) fun read => .ok (v :: read.1, read.2)).trans ?_
      rw [later]
      cases rereadItems? (next :: others) <;> rfl

/-- A **list** reads back from after its opening bracket. -/
theorem readItems_write {items : List Json} (each : ∀ v ∈ items, ReadsBack v) {fuel depth : Nat}
    {rest : List Char} (shallow : nestingOfItems items < depth)
    (enough : 3 * (writeItems items ++ rest).length + 3 ≤ fuel) :
    (readItems fuel depth (writeItems items ++ rest)).toOption
      = (rereadItems? items).map (·, rest) := by
  obtain ⟨fuel, rfl⟩ := Nat.exists_eq_add_one_of_ne_zero (by omega : fuel ≠ 0)
  cases items with
  | nil => simp [writeItems, readItems, skipSpaces_cons (by decide : isSpace ']' = false), rereadItems?,
      Except.toOption]
  | cons item items =>
    have enough' : 3 * (item.write ++ (writeMoreItems items ++ rest)).length + 2 ≤ fuel := by
      simp only [writeItems, List.append_assoc] at enough
      omega
    have later := readMoreItems_write each shallow enough'
    obtain ⟨c, more, text, opens⟩ := item.write_opens
    obtain ⟨blank, other, -⟩ := opensValue_apart opens
    rw [writeItems, List.append_assoc]
    rw [text, List.cons_append] at later ⊢
    rw [readItems, skipSpaces_cons blank]
    simp only [if_neg other]
    exact later

/-- What **follows a field** is read as an end or as the text of the next field. -/
theorem readSeparator_writeMoreFields (fields : List (String × Json)) (rest : List Char) :
    readSeparator '\x7d' .endInObject .expectedObjectEnd (writeMoreFields fields ++ rest) = .ok
      (match fields with
        | [] => none
        | (name, value) :: others =>
          some (writeText name ++ ':' :: (value.write ++ (writeMoreFields others ++ rest)))) := by
  cases fields with
  | nil => exact readSeparator_close ..
  | cons field others =>
    simp only [writeMoreFields, writeText, List.cons_append, List.append_assoc]
    exact readSeparator_comma (by decide) (by decide) (by decide) ..

/-- Fields are read back the first and then the others. -/
theorem rereadFields?_cons (name : String) (value : Json) (fields : List (String × Json)) :
    rereadFields? ((name, value) :: fields)
      = value.reread?.bind fun v => (rereadFields? fields).map ((name, v) :: ·) := by
  rw [rereadFields?]
  cases value.reread? with
  | none => rfl
  | some v => cases rereadFields? fields <;> rfl

/-- The **name of a field** and the colon after it are read back. -/
theorem readName_writeText (name : String) {fuel : Nat} {rest : List Char}
    (enough : (writeText name ++ rest).length ≤ fuel) :
    readName fuel (writeText name ++ rest) = .ok (name, rest) := by
  simp only [writeText, List.cons_append, List.append_assoc, List.nil_append] at enough ⊢
  exact readText_writeText name (by simp only [List.length_cons] at enough ⊢; omega)

/-- A colon **is read**. -/
theorem readColon_colon (rest : List Char) : readColon (':' :: rest) = .ok rest := by
  simp [readColon, skipSpaces_cons (by decide : isSpace ':' = false)]

/-- The fields of an object read back one by one, if each value does. -/
theorem readMoreFields_write {name : String} {value : Json} {fields : List (String × Json)}
    (each : ∀ field ∈ (name, value) :: fields, ReadsBack field.2) {fuel depth : Nat}
    {rest : List Char} (shallow : nestingOfFields ((name, value) :: fields) < depth)
    (enough : 3 * (writeText name ++ ':' :: (value.write ++ (writeMoreFields fields ++ rest))).length
      + 2 ≤ fuel) :
    (readMoreFields fuel depth
        (writeText name ++ ':' :: (value.write ++ (writeMoreFields fields ++ rest)))).toOption
      = (rereadFields? ((name, value) :: fields)).map (·, rest) := by
  induction fields generalizing name value fuel with
  | nil =>
    obtain ⟨fuel, rfl⟩ := Nat.exists_eq_add_one_of_ne_zero (by omega : fuel ≠ 0)
    have first := each _ List.mem_cons_self fuel depth _ (closed_writeMoreFields [] rest)
      (by simpa [nestingOfFields] using shallow) (by
        simp only [List.length_append, List.length_cons] at enough ⊢
        omega)
    rw [readMoreFields, readName_writeText name (by omega), ok_bind]
    simp only [readColon_colon, ok_bind]
    rw [toOption_bind, first, rereadFields?_cons]
    cases value.reread? with
    | none => rfl
    | some v =>
      simp only [Option.map_some, Option.bind_some, skipSpaces_of_closed (closed_writeMoreFields _ _),
        readSeparator_writeMoreFields]
      rfl
  | cons next others ih =>
    obtain ⟨fuel, rfl⟩ := Nat.exists_eq_add_one_of_ne_zero (by omega : fuel ≠ 0)
    have shallow' : nesting value < depth ∧ nestingOfFields (next :: others) < depth := by
      simpa [nestingOfFields] using shallow
    -- the first value ends at the comma behind it, and the others read back by induction
    have first := each _ List.mem_cons_self fuel depth _
      (closed_writeMoreFields (next :: others) rest) shallow'.1 (by
        simp only [List.length_append, List.length_cons] at enough ⊢
        omega)
    have enough' : 3 * (writeText next.1 ++ ':' ::
        (next.2.write ++ (writeMoreFields others ++ rest))).length + 2 ≤ fuel := by
      simp only [writeMoreFields, List.length_append, List.length_cons] at enough ⊢
      omega
    have later := ih (fun field member => each field (List.mem_cons_of_mem _ member)) shallow'.2
      enough'
    rw [readMoreFields, readName_writeText name (by omega), ok_bind]
    simp only [readColon_colon, ok_bind]
    rw [toOption_bind, first, rereadFields?_cons]
    cases value.reread? with
    | none => rfl
    | some v =>
      simp only [Option.map_some, Option.bind_some, skipSpaces_of_closed (closed_writeMoreFields _ _),
        readSeparator_writeMoreFields]
      refine (toOption_bind (readMoreFields fuel depth _)
        fun read => .ok ((name, v) :: read.1, read.2)).trans ?_
      rw [later]
      cases rereadFields? (next :: others) <;> rfl

/-- An **object** reads back from after its opening brace, its fields as they stand. -/
theorem readFields_write {fields : List (String × Json)}
    (each : ∀ field ∈ fields, ReadsBack field.2) {fuel depth : Nat} {rest : List Char}
    (shallow : nestingOfFields fields < depth)
    (enough : 3 * (writeFields fields ++ rest).length + 3 ≤ fuel) :
    (readFields fuel depth (writeFields fields ++ rest)).toOption
      = (rereadFields? fields).map (·, rest) := by
  obtain ⟨fuel, rfl⟩ := Nat.exists_eq_add_one_of_ne_zero (by omega : fuel ≠ 0)
  cases fields with
  | nil => simp [writeFields, readFields, skipSpaces_cons (by decide : isSpace '\x7d' = false),
      rereadFields?, Except.toOption]
  | cons field fields =>
    have enough' : 3 * (writeText field.1 ++ ':' ::
        (field.2.write ++ (writeMoreFields fields ++ rest))).length + 2 ≤ fuel := by
      simp only [writeFields, List.append_assoc, List.cons_append] at enough
      omega
    have later := readMoreFields_write each shallow enough'
    simp only [writeFields, writeText, List.cons_append, List.append_assoc] at later ⊢
    rw [readFields, skipSpaces_cons (by decide)]
    simp only [if_neg (by decide : ¬ '"' = '\x7d')]
    exact later

/-! ## 5. Every value -/

/-- A number is read **by itself**, whatever closes it. -/
theorem readNumber_writeNumber (n : Number) {rest : List Char} (closed : Closed rest) :
    (readNumber (writeNumber n ++ rest)).toOption = n.reread?.map (·, rest) := by
  obtain ⟨c, more, text, -⟩ := (isNumeral_writeNumber n).opens
  have some_text : writeNumber n ≠ [] := by
    rw [text]
    exact List.cons_ne_nil c more
  rw [readNumber_append closed.ends some_text, Number.reread?]
  cases read : readNumber (writeNumber n) with
  | error fault => rfl
  | ok read' =>
    obtain ⟨m, left⟩ := read'
    obtain rfl := (isNumeral_writeNumber n).spent m left read
    rfl

/-- **Every value** reads back. -/
theorem readsBack : ∀ v : Json, ReadsBack v
  | null => fun fuel depth rest _ _ enough => by
    obtain ⟨fuel, rfl⟩ := Nat.exists_eq_add_one_of_ne_zero (by omega : fuel ≠ 0)
    simp [write, readValue, skipSpaces_cons (by decide : isSpace 'n' = false), readWord, reread?,
      ok_bind, Except.toOption, pure, Except.pure]
  | bool true => fun fuel depth rest _ _ enough => by
    obtain ⟨fuel, rfl⟩ := Nat.exists_eq_add_one_of_ne_zero (by omega : fuel ≠ 0)
    simp [write, readValue, skipSpaces_cons (by decide : isSpace 't' = false), readWord, reread?,
      ok_bind, Except.toOption, pure, Except.pure]
  | bool false => fun fuel depth rest _ _ enough => by
    obtain ⟨fuel, rfl⟩ := Nat.exists_eq_add_one_of_ne_zero (by omega : fuel ≠ 0)
    simp [write, readValue, skipSpaces_cons (by decide : isSpace 'f' = false), readWord, reread?,
      ok_bind, Except.toOption, pure, Except.pure]
  | num n => fun fuel depth rest closed _ enough => by
    obtain ⟨fuel, rfl⟩ := Nat.exists_eq_add_one_of_ne_zero (by omega : fuel ≠ 0)
    have number := readNumber_writeNumber n closed
    obtain ⟨c, more, text, opens⟩ := (isNumeral_writeNumber n).opens
    rw [text, List.cons_append] at number
    rw [write, text, List.cons_append, readValue_of_opensNumeral opens, number, reread?]
    cases n.reread? <;> rfl
  | str s => fun fuel depth rest _ _ enough => by
    obtain ⟨fuel, rfl⟩ := Nat.exists_eq_add_one_of_ne_zero (by omega : fuel ≠ 0)
    simp only [write, writeText, List.cons_append, List.append_assoc, List.nil_append] at enough ⊢
    rw [readValue_quote, readText_writeText s (by simp only [List.length_cons] at enough; omega),
      reread?]
    rfl
  | arr items => fun fuel depth rest _ shallow enough => by
    obtain ⟨fuel, rfl⟩ := Nat.exists_eq_add_one_of_ne_zero (by omega : fuel ≠ 0)
    have shallow' : nestingOfItems items < depth - 1 := by
      rw [nesting] at shallow
      omega
    have enough' : 3 * (writeItems items ++ rest).length + 3 ≤ fuel := by
      simp only [write, List.length_append, List.length_cons] at enough ⊢
      omega
    have items_read := readItems_write (fun item (_ : item ∈ items) => readsBack item) shallow' enough'
    rw [write, List.cons_append, readValue_bracket (by rw [nesting] at shallow; omega), items_read,
      reread?]
    cases rereadItems? items <;> rfl
  | obj fields => fun fuel depth rest _ shallow enough => by
    obtain ⟨fuel, rfl⟩ := Nat.exists_eq_add_one_of_ne_zero (by omega : fuel ≠ 0)
    have shallow' : nestingOfFields fields < depth - 1 := by
      rw [nesting] at shallow
      omega
    have enough' : 3 * (writeFields fields ++ rest).length + 3 ≤ fuel := by
      simp only [write, List.length_append, List.length_cons] at enough ⊢
      omega
    have fields_read := readFields_write (fun field (_ : field ∈ fields) => readsBack field.2) shallow'
      enough'
    rw [write, List.cons_append, readValue_brace (by rw [nesting] at shallow; omega), fields_read,
      reread?]
    cases rereadFields? fields <;> rfl
termination_by v => sizeOf v
decreasing_by
  · next member =>
    have := List.sizeOf_lt_of_mem member
    simp only [arr.sizeOf_spec]
    omega
  · next member =>
    have := List.sizeOf_lt_of_mem member
    obtain ⟨name, value⟩ := field
    simp only [Prod.mk.sizeOf_spec, obj.sizeOf_spec] at this ⊢
    omega

/-- A document **of any value** that does not nest too deep is read back as that value, its numbers
and the order of its fields apart. -/
theorem read_text {v : Json} (shallow : v.nesting < depthLimit) :
    (read v.text).toOption = v.reread? := by
  have front := readsBack v (stepBound v.write) depthLimit [] closed_nil shallow (by
    rw [List.append_nil, stepBound]
    omega)
  rw [List.append_nil] at front
  rw [read, text, String.toList_ofList, readDocument, toOption_bind, front]
  cases v.reread? <;> rfl

/-! ## 6. Fields in order -/

/-- A field is put in **after all that come before it**. -/
theorem insertField_of_lt {name : String} {held : List (String × Json)}
    (before : ∀ field ∈ held, field.1 < name) (value : Json) :
    insertField name value held = held ++ [(name, value)] := by
  induction held with
  | nil => rfl
  | cons field held ih =>
    have here : field.1 < name := before field List.mem_cons_self
    rw [insertField, if_neg here.ne', if_neg here.asymm,
      ih fun other member => before other (List.mem_cons_of_mem field member)]
    rfl

/-- Names **in order**, each once. -/
def InOrder (fields : List (String × Json)) : Prop :=
  fields.Pairwise fun field other => field.1 < other.1

/-- Fields that are in order are kept **as they are**. -/
theorem ofFields_of_inOrder {fields : List (String × Json)} (h : InOrder fields) :
    ofFields fields = obj fields := by
  have put (held more : List (String × Json)) (sorted : InOrder (held ++ more)) :
      more.foldl (fun held field => insertField field.1 field.2 held) held = held ++ more := by
    induction more generalizing held with
    | nil => rw [List.foldl_nil, List.append_nil]
    | cons field more ih =>
      have before : ∀ other ∈ held, other.1 < field.1 := fun other member =>
        (List.pairwise_append.mp sorted).2.2 other member field List.mem_cons_self
      rw [List.foldl_cons, insertField_of_lt before, ih _ (by simpa [List.append_assoc] using sorted),
        List.append_assoc]
      rfl
  rw [ofFields, put [] fields h, List.nil_append]

/-- The first field is found **by its name**, the others behind it. -/
theorem lookup_field (name other : String) (value : Json) (fields : List (String × Json)) :
    ((other, value) :: fields).lookup name
      = if name = other then some value else fields.lookup name := by
  rw [List.lookup_cons]
  by_cases same : name = other
  · rw [if_pos same, beq_iff_eq.mpr same]
  · rw [if_neg same, beq_eq_false_iff_ne.mpr same]

/-- A field is looked up **among the names put in**. -/
theorem lookup_insertField (name other : String) (value : Json) (held : List (String × Json)) :
    (insertField other value held).lookup name
      = if name = other then some value else held.lookup name := by
  induction held with
  | nil => exact lookup_field ..
  | cons field held ih =>
    obtain ⟨next, inside⟩ := field
    rw [insertField]
    split
    · next same =>
      subst same
      rw [lookup_field, lookup_field]
      split <;> rfl
    · next apart =>
      split
      · exact lookup_field ..
      · rw [lookup_field, lookup_field, ih]
        by_cases here : name = other
        · subst here
          rw [if_neg apart, if_pos rfl, if_pos rfl]
        · rw [if_neg here, if_neg here]

/-! ## 7. Values that come back as they are -/

mutual

/-- The **numbers** in a value. -/
def numbers : Json → List Number
  | null | bool _ | str _ => []
  | num n => [n]
  | arr items => numbersOfItems items
  | obj fields => numbersOfFields fields

/-- The numbers in items. -/
def numbersOfItems : List Json → List Number
  | [] => []
  | item :: rest => numbers item ++ numbersOfItems rest

/-- The numbers in fields. -/
def numbersOfFields : List (String × Json) → List Number
  | [] => []
  | (_, value) :: rest => numbers value ++ numbersOfFields rest

end

mutual

/-- A value is **tidy** when the names of every object in it are in order, each once. -/
def Tidy : Json → Prop
  | null | bool _ | num _ | str _ => True
  | arr items => ItemsTidy items
  | obj fields => InOrder fields ∧ FieldsTidy fields

/-- Items that are tidy. -/
def ItemsTidy : List Json → Prop
  | [] => True
  | item :: rest => Tidy item ∧ ItemsTidy rest

/-- Fields whose values are tidy. -/
def FieldsTidy : List (String × Json) → Prop
  | [] => True
  | (_, value) :: rest => Tidy value ∧ FieldsTidy rest

end

/-- Fields are read back **under their names**. -/
theorem names_rereadFields? {fields fields' : List (String × Json)}
    (h : rereadFields? fields = some fields') : fields'.map Prod.fst = fields.map Prod.fst := by
  induction fields generalizing fields' with
  | nil =>
    obtain rfl : [] = fields' := by simpa [rereadFields?] using h
    rfl
  | cons field fields ih =>
    obtain ⟨name, value⟩ := field
    rw [rereadFields?_cons] at h
    obtain ⟨value', -, h⟩ := Option.bind_eq_some_iff.mp h
    obtain ⟨others, later, rfl⟩ := Option.map_eq_some_iff.mp h
    rw [List.map_cons, List.map_cons, ih later]

/-- Names that are in order stay so. -/
theorem InOrder.rereadFields? {fields fields' : List (String × Json)} (h : InOrder fields)
    (read : Json.rereadFields? fields = some fields') : InOrder fields' := by
  have names : (fields'.map Prod.fst).Pairwise (· < ·) := by
    rw [names_rereadFields? read, List.pairwise_map]
    exact h
  exact List.pairwise_map.mp names

mutual

/-- A tidy value comes back **as it is** exactly if each of its numbers does. -/
theorem reread?_eq_some_iff : ∀ {v : Json}, v.Tidy →
    (v.reread? = some v ↔ ∀ n ∈ v.numbers, n.reread? = some n)
  | null, _ => by simp [reread?, numbers]
  | bool b, _ => by simp [reread?, numbers]
  | str s, _ => by simp [reread?, numbers]
  | num n, _ => by simp [reread?, numbers]
  | arr items, tidy => by
    rw [Tidy] at tidy
    rw [reread?, numbers, ← rereadItems?_eq_some_iff tidy]
    simp
  | obj fields, tidy => by
    rw [Tidy] at tidy
    rw [reread?, numbers, ← rereadFields?_eq_some_iff tidy.2]
    constructor
    · intro h
      obtain ⟨fields', read, same⟩ := Option.map_eq_some_iff.mp h
      rw [ofFields_of_inOrder (tidy.1.rereadFields? read)] at same
      rw [read, obj.inj same]
    · intro read
      rw [read, Option.map_some, ofFields_of_inOrder tidy.1]

/-- Tidy items come back as they are exactly if each of their numbers does. -/
theorem rereadItems?_eq_some_iff : ∀ {items : List Json}, ItemsTidy items →
    (rereadItems? items = some items ↔ ∀ n ∈ numbersOfItems items, n.reread? = some n)
  | [], _ => by simp [rereadItems?, numbersOfItems]
  | item :: items, tidy => by
    rw [ItemsTidy] at tidy
    have first := reread?_eq_some_iff tidy.1
    have later := rereadItems?_eq_some_iff tidy.2
    simp only [numbersOfItems, List.mem_append, or_imp, forall_and, ← first, ← later,
      rereadItems?_cons, Option.bind_eq_some_iff, Option.map_eq_some_iff, List.cons.injEq]
    constructor
    · rintro ⟨v, read, items', reads, rfl, rfl⟩
      exact ⟨read, reads⟩
    · rintro ⟨read, reads⟩
      exact ⟨item, read, items, reads, rfl, rfl⟩

/-- Fields of tidy values come back as they are exactly if each of their numbers does. -/
theorem rereadFields?_eq_some_iff : ∀ {fields : List (String × Json)}, FieldsTidy fields →
    (rereadFields? fields = some fields ↔ ∀ n ∈ numbersOfFields fields, n.reread? = some n)
  | [], _ => by simp [rereadFields?, numbersOfFields]
  | (name, value) :: fields, tidy => by
    rw [FieldsTidy] at tidy
    have first := reread?_eq_some_iff tidy.1
    have later := rereadFields?_eq_some_iff tidy.2
    simp only [numbersOfFields, List.mem_append, or_imp, forall_and, ← first, ← later,
      rereadFields?_cons, Option.bind_eq_some_iff, Option.map_eq_some_iff, List.cons.injEq,
      Prod.mk.injEq]
    constructor
    · rintro ⟨v, read, fields', reads, ⟨-, rfl⟩, rfl⟩
      exact ⟨read, reads⟩
    · rintro ⟨read, reads⟩
      exact ⟨value, read, fields, reads, ⟨trivial, rfl⟩, rfl⟩

end

/-- A double is read back **as a double**, or not at all: its kind never changes. -/
theorem reread?_real {x : Float} (finite : x.isFinite = true) {y : Float} (finite' : y.isFinite = true) :
    (Number.real x finite).reread? = some (.real y finite')
      ↔ (Number.real x finite).reread?.map Number.toFloat = some y := by
  have double := readsReal_readNumber (isDecimal_writeNumber finite)
  rw [Number.reread?]
  cases read : readNumber (writeNumber (.real x finite)) with
  | error fault => simp [Except.toOption]
  | ok result =>
    obtain ⟨m, rest⟩ := result
    obtain ⟨z, finite'', rfl⟩ := double m rest read
    simp [Except.toOption]

/-- A **whole number** always comes back. -/
theorem reread?_whole {n : Int} (inRange : Number.least ≤ n ∧ n < Number.limit) :
    (Number.whole n inRange).reread? = some (.whole n inRange) := by
  rw [Number.reread?, writeNumber, readNumber_intText inRange]
  rfl

/-- What a number comes back as is what **the document of it alone** holds. -/
theorem read_text_num (n m : Number) :
    read (num n).text = .ok (num m) ↔ n.reread? = some m := by
  have document := read_text (v := num n) (by rw [nesting]; decide)
  rw [reread?] at document
  constructor
  · intro h
    rw [h] at document
    obtain ⟨m', read, same⟩ := Option.map_eq_some_iff.mp document.symm
    rw [read, num.inj same]
  · intro h
    rw [h] at document
    cases whole : read (num n).text with
    | error fault => simp [whole, Except.toOption] at document
    | ok v =>
      rw [whole] at document
      rw [Option.some.inj document]

end Json

end RuleDispatch
