/-
Reading what was printed. A printed value is read as the same value with
each of its numbers read on its own (`read_compact`): strings, arrays and
objects always come back, and so do integers of 64 bits; a double comes
back as the double that its shortest decimal is read as, which need not
be the same one, because decimals are not always read as the double
nearest to them.
-/
import Depot.Proofs.Json.Numeral

namespace Depot.Json

namespace Reader

-- ===================================================== strings

/-- A digit below sixteen is read back. -/
theorem hexValue?_hexDigit : ∀ n < 16, Text.hexValue? (Text.hexDigit n) = some n := by
  decide

/-- An escaped control character is read back. -/
theorem unicodeEscape_control {c : Char} (h : c.toNat < 32) (rest : List Char) :
    unicodeEscape ('0' :: '0' :: Text.hexDigit (c.toNat / 16)
        :: Text.hexDigit (c.toNat % 16) :: rest)
      = .ok (c, rest) := by
  have hhex : hexEscape ('0' :: '0' :: Text.hexDigit (c.toNat / 16)
      :: Text.hexDigit (c.toNat % 16) :: rest) = .ok (c.toNat, rest) := by
    unfold hexEscape
    dsimp only
    rw [hexValue?_hexDigit _ (by omega), hexValue?_hexDigit _ (by omega),
      show Text.hexValue? '0' = some 0 by decide]
    dsimp only
    congr 2
    omega
  have hlow : isLowHalf c.toNat = false := by
    unfold isLowHalf
    simp
    omega
  have hhigh : isHighHalf c.toNat = false := by
    unfold isHighHalf
    simp
    omega
  unfold unicodeEscape
  rw [bind_apply, hhex]
  dsimp only
  rw [hlow, hhigh, if_neg (by decide), if_neg (by decide), pure_apply, Char.ofNat_toNat]

/-- A character that is neither a quote nor a backslash. -/
theorem match_plain {α : Type} {c : Char} (hquote : c ≠ '"') (hslash : c ≠ '\\') (n a b : α)
    (f : Char → α) :
    (match some c with
      | none => n
      | some '"' => a
      | some '\\' => b
      | some c => f c) = f c := by
  split
  · next h => cases h
  · next h => exact absurd (Option.some.inj h) hquote
  · next h => exact absurd (Option.some.inj h) hslash
  · next h => rw [Option.some.inj h]

/-- A character of a string is read back from what it is written as. -/
theorem stringBody_escaped (fuel : Nat) (seen : List Char) (c : Char) (rest : List Char) :
    stringBody unicodeEscape (fuel + 1) seen (escaped c ++ rest)
      = stringBody unicodeEscape fuel (c :: seen) rest := by
  unfold escaped
  split
  · rfl
  · rfl
  · rfl
  · rfl
  · rfl
  · rfl
  · rfl
  · next hquote hslash _ _ _ _ _ =>
    split
    · next hc =>
      have hread := bind_apply unicodeEscape (fun c => stringBody unicodeEscape fuel (c :: seen))
        ('0' :: '0' :: Text.hexDigit (c.toNat / 16) :: Text.hexDigit (c.toNat % 16) :: rest)
      rw [unicodeEscape_control hc] at hread
      exact hread
    · next hc =>
      rw [stringBody.eq_def]
      dsimp only
      rw [bind_apply, front_apply, List.singleton_append, List.head?_cons]
      refine (congrFun (match_plain hquote hslash _ _ _ _) (c :: rest)).trans ?_
      rw [if_neg hc]
      rfl

/-- A string is read back up to the quote that closes it. -/
theorem stringBody_flatMap (cs rest : List Char) :
    ∀ (fuel : Nat) (seen : List Char), cs.length < fuel →
      stringBody unicodeEscape fuel seen (cs.flatMap escaped ++ '"' :: rest)
        = .ok (seen.reverse ++ cs, rest) := by
  induction cs with
  | nil =>
      intro fuel seen h
      obtain ⟨fuel, rfl⟩ := Nat.exists_eq_succ_of_ne_zero (Nat.ne_of_gt h)
      rw [List.append_nil]
      rfl
  | cons c cs ih =>
      intro fuel seen h
      obtain ⟨fuel, rfl⟩ := Nat.exists_eq_succ_of_ne_zero (Nat.ne_of_gt (Nat.zero_lt_of_lt h))
      rw [List.flatMap_cons, List.append_assoc, stringBody_escaped,
        ih fuel (c :: seen) (by simpa using h), List.reverse_cons, List.append_assoc]
      rfl

/-- No character is written with none. -/
theorem escaped_ne_nil (c : Char) : escaped c ≠ [] := by
  unfold escaped
  split <;> try simp
  split <;> simp

theorem length_le_flatMap_escaped (cs : List Char) : cs.length ≤ (cs.flatMap escaped).length := by
  induction cs with
  | nil => simp
  | cons c cs ih =>
      have := List.length_pos_iff.2 (escaped_ne_nil c)
      rw [List.flatMap_cons, List.length_append, List.length_cons]
      omega

/-- A string is read back. -/
theorem string_quoted (s : String) {fuel : Nat} (h : (quoted s).length ≤ fuel) (rest : List Char) :
    string fuel (quoted s ++ rest) = .ok (s, rest) := by
  have hlen : s.toList.length < fuel := by
    have := length_le_flatMap_escaped s.toList
    simp only [quoted, List.length_cons, List.length_append, List.length_nil] at h
    omega
  unfold string quoted
  rw [bind_apply, take_apply]
  dsimp only
  rw [bind_apply, List.cons_append, List.tail_cons, List.append_assoc, List.singleton_append,
    stringBody_flatMap _ _ _ _ hlen]
  simp

end Reader

-- ===================================================== values

mutual

/-- How deep arrays and objects nest in a value. -/
def depth : Json → Nat
  | arr items => itemsDepth items + 1
  | obj members => membersDepth members + 1
  | _ => 0

/-- How deep arrays and objects nest in the items of an array. -/
def itemsDepth : List Json → Nat
  | [] => 0
  | v :: rest => max (depth v) (itemsDepth rest)

/-- How deep arrays and objects nest in the members of an object. -/
def membersDepth : List (String × Json) → Nat
  | [] => 0
  | (_, v) :: rest => max (depth v) (membersDepth rest)

end

/-- Members in the order of their names, each name once. -/
def InOrder (members : List (String × Json)) : Prop :=
  members.Pairwise fun a b => a.1 < b.1

mutual

/-- Every object in the value has its members in order. -/
def Ordered : Json → Prop
  | arr items => OrderedItems items
  | obj members => InOrder members ∧ OrderedMembers members
  | _ => True

def OrderedItems : List Json → Prop
  | [] => True
  | v :: rest => Ordered v ∧ OrderedItems rest

def OrderedMembers : List (String × Json) → Prop
  | [] => True
  | (_, v) :: rest => Ordered v ∧ OrderedMembers rest

end

mutual

/-- The value with each number as its text is read. -/
def reread : Json → Except Fault Json
  | num n => (rereadNumber n).map num
  | arr items => (rereadItems items).map arr
  | obj members => (rereadMembers members).map obj
  | v => .ok v

def rereadItems : List Json → Except Fault (List Json)
  | [] => .ok []
  | v :: rest =>
      match reread v with
      | .error f => .error f
      | .ok v => (rereadItems rest).map (v :: ·)

def rereadMembers : List (String × Json) → Except Fault (List (String × Json))
  | [] => .ok []
  | (n, v) :: rest =>
      match reread v with
      | .error f => .error f
      | .ok v => (rereadMembers rest).map ((n, v) :: ·)

end

/-- What a value starts with. -/
def Starts (s : List Char) : Prop :=
  ∃ c t, s = c :: t ∧ (c ∈ ['n', 't', 'f', '"', '[', '{', '-'] ∨ c.isDigit = true)

theorem starts_chars (v : Json) : Starts (chars v) := by
  cases v with
  | null => exact ⟨'n', _, rfl, by simp⟩
  | bool b => cases b with
    | true => exact ⟨'t', _, rfl, by simp⟩
    | false => exact ⟨'f', _, rfl, by simp⟩
  | num n =>
      obtain ⟨ds, tail, hds, -, h⟩ := Reader.isNumeral_numberText n
      obtain ⟨d, ds, rfl⟩ := List.exists_cons_of_ne_nil hds.1
      unfold chars
      rcases h with h | h
      · exact ⟨d, _, h, .inr (hds.2 d (List.mem_cons_self ..))⟩
      · exact ⟨'-', _, h, by simp⟩
  | str s => exact ⟨'"', _, rfl, by simp⟩
  | arr items => exact ⟨'[', _, by rw [chars], by simp⟩
  | obj members => exact ⟨'{', _, by rw [chars], by simp⟩

/-- What starts like a value is seen as it is. -/
theorem peek_starts {s : List Char} (h : Starts s) (rest : List Char) :
    Reader.peek (s ++ rest) = .ok (s.head?, s ++ rest) := by
  obtain ⟨c, t, rfl, hc⟩ := h
  have hblank : Reader.dropBlanks (c :: (t ++ rest)) = c :: (t ++ rest) := by
    rcases hc with hc | hc
    · simp only [List.mem_cons, List.not_mem_nil, or_false] at hc
      obtain rfl | rfl | rfl | rfl | rfl | rfl | rfl := hc <;> rfl
    · unfold Reader.dropBlanks
      split
      · next h => cases h; exact absurd hc (by decide)
      · next h => cases h; exact absurd hc (by decide)
      · next h => cases h; exact absurd hc (by decide)
      · next h => cases h; exact absurd hc (by decide)
      · rfl
  unfold Reader.peek
  dsimp only
  rw [List.cons_append, hblank]
  rfl


-- ===================================================== items and members

/-- The items that come after others. -/
def itemsAfter : List Json → List Char
  | [] => []
  | v :: rest => ',' :: itemChars (v :: rest)

/-- The members that come after others. -/
def membersAfter : List (String × Json) → List Char
  | [] => []
  | m :: rest => ',' :: memberChars (m :: rest)

theorem itemChars_cons (v : Json) (rest : List Json) :
    itemChars (v :: rest) = chars v ++ itemsAfter rest := by
  cases rest with
  | nil => simp [itemChars, itemsAfter]
  | cons w rest => rw [itemChars, itemsAfter]

theorem memberChars_cons (n : String) (v : Json) (rest : List (String × Json)) :
    memberChars ((n, v) :: rest) = quoted n ++ ':' :: (chars v ++ membersAfter rest) := by
  cases rest with
  | nil => simp [memberChars, membersAfter]
  | cons m rest => rw [memberChars, membersAfter]

theorem ends_itemsAfter (items : List Json) (rest : List Char) :
    Ends (itemsAfter items ++ ']' :: rest) := by
  intro c hc
  cases items with
  | nil => exact .inr (.inl (by simpa [itemsAfter, eq_comm] using hc))
  | cons v items => exact .inl (by simpa [itemsAfter, eq_comm] using hc)

theorem ends_membersAfter (members : List (String × Json)) (rest : List Char) :
    Ends (membersAfter members ++ '}' :: rest) := by
  intro c hc
  cases members with
  | nil => exact .inr (.inr (by simpa [membersAfter, eq_comm] using hc))
  | cons m members => exact .inl (by simpa [membersAfter, eq_comm] using hc)

theorem length_chars_arr (items : List Json) :
    (chars (.arr items)).length = (itemChars items).length + 2 := by
  simp [chars]

theorem length_chars_obj (members : List (String × Json)) :
    (chars (.obj members)).length = (memberChars members).length + 2 := by
  simp [chars]

/-- Every item takes a character at least. -/
theorem length_le_itemChars (items : List Json) : items.length ≤ (itemChars items).length := by
  induction items with
  | nil => simp
  | cons v items ih =>
      obtain ⟨c, t, h, -⟩ := starts_chars v
      rw [itemChars_cons, h]
      cases items with
      | nil => simp
      | cons w items =>
          simp only [itemsAfter, List.length_cons, List.length_append] at ih ⊢
          omega

theorem length_le_memberChars (members : List (String × Json)) :
    members.length ≤ (memberChars members).length := by
  induction members with
  | nil => simp
  | cons m members ih =>
      obtain ⟨n, v⟩ := m
      rw [memberChars_cons]
      cases members with
      | nil => simp [quoted]
      | cons m members =>
          simp only [membersAfter, List.length_cons, List.length_append] at ih ⊢
          omega

/-- A member above all others comes last. -/
theorem setMember_above {n : String} (v : Json) {found : List (String × Json)}
    (h : ∀ m ∈ found, m.1 < n) : setMember n v found = found ++ [(n, v)] := by
  induction found with
  | nil => rfl
  | cons m found ih =>
      obtain ⟨k, w⟩ := m
      have hk : k < n := h (k, w) (List.mem_cons_self ..)
      rw [setMember, if_neg (String.lt_asymm hk), if_neg (String.ne_of_lt hk).symm,
        ih fun m hm => h m (List.mem_cons_of_mem _ hm), List.cons_append]


-- ===================================================== reading values

namespace Reader

variable {fuel depth : Nat}

/-- Reads one more item of an array. -/
def pushItem (fuel depth : Nat) (found : List Json) : Reader (List Json) := do
  return (← value fuel depth) :: found

/-- Reads the value of one more member of an object. -/
def pushMember (fuel depth : Nat) (n : String) (found : List (String × Json)) :
    Reader (List (String × Json)) := do
  colon
  return setMember n (← value fuel depth) found

/-- What is read after looking at what a value starts with. -/
theorem peek_bind {α : Type} {s : List Char} (h : Starts s) (rest : List Char)
    (next : Option Char → Reader α) (reader : Reader α)
    (hnext : ∀ c, c ∈ ['n', 't', 'f', '"', '[', '{', '-'] ∨ c.isDigit = true →
      next (some c) = reader) :
    (peek >>= next) (s ++ rest) = reader (s ++ rest) := by
  rw [bind_apply, peek_starts h]
  obtain ⟨c, t, rfl, hc⟩ := h
  dsimp only [List.head?_cons]
  rw [hnext c hc]

/-- Where a value starts, there is an item. -/
theorem nextItem_starts {s : List Char} (h : Starts s) (rest : List Char) :
    nextItem true (s ++ rest) = .ok (.item, s ++ rest) := by
  refine peek_bind h rest _ (pure Place.item) fun c hc => ?_
  split
  · next h => cases h
  · next h => cases h; simp at hc
  · rfl
  · rfl

/-- Looks for an item after a comma. -/
def itemAfterComma : Reader Place := do
  match ← peek with
  | none => fail .truncated
  | some ']' => fail .malformed
  | some _ => pure .item

/-- After a comma, too. -/
theorem nextItem_comma {s : List Char} (h : Starts s) (rest : List Char) :
    nextItem false (',' :: (s ++ rest)) = .ok (.item, s ++ rest) := by
  have hcomma : nextItem false (',' :: (s ++ rest)) = itemAfterComma (s ++ rest) := rfl
  rw [hcomma]
  refine peek_bind h rest _ (pure Place.item) fun c hc => ?_
  split
  · next h => cases h
  · next h => cases h; simp at hc
  · rfl

theorem nextMember_quoted (n : String) (rest : List Char) :
    nextMember true (quoted n ++ rest) = .ok (.item, quoted n ++ rest) := rfl

theorem nextMember_comma (n : String) (rest : List Char) :
    nextMember false (',' :: (quoted n ++ rest)) = .ok (.item, quoted n ++ rest) := rfl

/-- An item is read, and then those after it. -/
theorem items_item {fuel depth n : Nat} {first : Bool} (found : List Json) {s : List Char}
    {v : Json} {items : List Json} {rest : List Char}
    (hnext : nextItem first s = .ok (.item, chars v ++ (itemsAfter items ++ ']' :: rest)))
    (hv : Takes (value fuel depth) (chars v) (reread v))
    (hitems : ∀ found, Reader.items (pushItem fuel depth) n false found
        (itemsAfter items ++ ']' :: rest)
      = (rereadItems items).map fun vs => (vs.reverse ++ found, rest)) :
    Reader.items (pushItem fuel depth) (n + 1) first found s
      = (rereadItems (v :: items)).map fun vs => (vs.reverse ++ found, rest) := by
  rw [Reader.items, bind_apply, hnext]
  dsimp only
  rw [bind_apply, pushItem, bind_apply, hv _ (ends_itemsAfter items rest), rereadItems]
  cases reread v with
  | error f => rfl
  | ok w =>
      dsimp only [Except.map, pure_apply]
      rw [hitems]
      cases rereadItems items with
      | error f => rfl
      | ok vs => simp [Except.map]

/-- A member is read, and then those after it. -/
theorem members_member {fuel depth k : Nat} {first : Bool} (found : List (String × Json))
    {s : List Char} {n : String} {v : Json} {members : List (String × Json)} {rest : List Char}
    (hnext : nextMember first s
      = .ok (.item, quoted n ++ ':' :: (chars v ++ (membersAfter members ++ '}' :: rest))))
    (hn : (quoted n).length ≤ fuel) (hbelow : ∀ m ∈ found, m.1 < n)
    (hv : Takes (value fuel depth) (chars v) (reread v))
    (hmembers : ∀ w, Reader.members (string fuel) (pushMember fuel depth) k false
        (found ++ [(n, w)]) (membersAfter members ++ '}' :: rest)
      = (rereadMembers members).map fun ms => (found ++ [(n, w)] ++ ms, rest)) :
    Reader.members (string fuel) (pushMember fuel depth) (k + 1) first found s
      = (rereadMembers ((n, v) :: members)).map fun ms => (found ++ ms, rest) := by
  rw [Reader.members, bind_apply, hnext]
  dsimp only
  rw [bind_apply, string_quoted n hn]
  dsimp only
  have hcolon : ∀ t, colon (':' :: t) = .ok ((), t) := fun _ => rfl
  rw [bind_apply, pushMember, bind_apply, hcolon]
  dsimp only
  rw [bind_apply, hv _ (ends_membersAfter members rest), rereadMembers]
  cases reread v with
  | error f => rfl
  | ok w =>
      dsimp only [Except.map, pure_apply]
      rw [setMember_above w hbelow, hmembers]
      cases rereadMembers members with
      | error f => rfl
      | ok ms => simp [Except.map]

/-- A value that is neither array nor object is read as a scalar. -/
theorem value_scalar {s : List Char} (h : Starts s) (hopen : s.head? ≠ some '[')
    (hobject : s.head? ≠ some '{') (rest : List Char) :
    ∃ c, s.head? = some c ∧ value fuel depth (s ++ rest) = scalar fuel c (s ++ rest) := by
  have hpeek := peek_starts h rest
  obtain ⟨c, t, rfl, -⟩ := h
  refine ⟨c, rfl, ?_⟩
  cases depth with
  | zero =>
      unfold value
      rw [bind_apply, hpeek]
      rfl
  | succ depth =>
      unfold value
      rw [bind_apply, hpeek]
      refine congrFun (g := scalar fuel c) ?_ _
      split
      · next h => cases h
      · next h => exact absurd h hopen
      · next h => exact absurd h hobject
      · next h => cases h; rfl

/-- A number is read as it is read alone. -/
theorem value_num (n : Number) (rest : List Char) (hrest : Ends rest) :
    value fuel depth (numberText n ++ rest) = (rereadNumber n).map fun m => (.num m, rest) := by
  have hstarts : Starts (numberText n) := by
    have h := starts_chars (num n)
    rwa [chars] at h
  have hfront : ∀ c, (numberText n).head? = some c → c = '-' ∨ c.isDigit = true := by
    intro c hc
    obtain ⟨ds, tail, hds, -, h⟩ := isNumeral_numberText n
    obtain ⟨d, ds, rfl⟩ := List.exists_cons_of_ne_nil hds.1
    rcases h with h | h
    · obtain rfl : d = c := by simpa [h] using hc
      exact .inr (hds.2 d (List.mem_cons_self ..))
    · exact .inl (by simpa [h, eq_comm] using hc)
  have hother : ∀ c, ¬(c = '-' ∨ c.isDigit = true) → (numberText n).head? ≠ some c :=
    fun c hc h => hc (hfront c h)
  obtain ⟨c, hc, hvalue⟩ := @value_scalar fuel depth _ hstarts
    (hother _ (by decide)) (hother _ (by decide)) rest
  have hscalar : scalar fuel c = (do return .num (← number)) := by
    have hc := hfront c hc
    unfold scalar
    split
    · exact absurd hc (by decide)
    · exact absurd hc (by decide)
    · exact absurd hc (by decide)
    · exact absurd hc (by decide)
    · rw [if_pos hc]
  rw [hvalue, hscalar, bind_apply, number_numberText n hrest]
  cases rereadNumber n <;> rfl

mutual

/-- A value is read back, up to its numbers. -/
theorem takes_value (fuel : Nat) : ∀ (v : Json) (d : Nat), v.depth ≤ d → (chars v).length ≤ fuel →
    v.Ordered → Takes (value fuel d) (chars v) (reread v)
  | .null, d, _, _, _ => by
      intro rest _
      cases d <;> rfl
  | .bool true, d, _, _, _ => by
      intro rest _
      cases d <;> rfl
  | .bool false, d, _, _, _ => by
      intro rest _
      cases d <;> rfl
  | .num n, d, _, _, _ => by
      intro rest hrest
      unfold chars reread
      rw [value_num n rest hrest]
      cases rereadNumber n <;> rfl
  | .str s, d, _, hfuel, _ => by
      intro rest _
      unfold chars at hfuel ⊢
      have hvalue : value fuel d (quoted s ++ rest)
          = (do return .str (← string fuel) : Reader Json) (quoted s ++ rest) := by
        cases d <;> rfl
      rw [hvalue, bind_apply, string_quoted s hfuel]
      rfl
  | .arr items, 0, hdepth, _, _ => absurd hdepth (by simp [Json.depth])
  | .arr items, d + 1, hdepth, hfuel, hordered => by
      intro rest _
      have hread : Reader.items (pushItem fuel d) fuel true [] (itemChars items ++ ']' :: rest)
          = (rereadItems items).map fun vs => (vs.reverse, rest) :=
        items_itemChars fuel items d (by simpa [Json.depth] using hdepth)
          (length_chars_arr items ▸ hfuel) hordered rest
      have hvalue : value fuel (d + 1) (chars (.arr items) ++ rest)
          = (do
              let found ← Reader.items (pushItem fuel d) fuel true []
              return Json.arr found.reverse : Reader Json) (itemChars items ++ ']' :: rest) := by
        rw [chars, List.cons_append, List.append_assoc]
        rfl
      rw [hvalue, bind_apply, hread, reread]
      cases rereadItems items with
      | error f => rfl
      | ok vs => simp [Except.map]
  | .obj members, 0, hdepth, _, _ => absurd hdepth (by simp [Json.depth])
  | .obj members, d + 1, hdepth, hfuel, hordered => by
      intro rest _
      have hread : Reader.members (string fuel) (pushMember fuel d) fuel true []
            (memberChars members ++ '}' :: rest)
          = (rereadMembers members).map (·, rest) :=
        members_memberChars fuel members d (by simpa [Json.depth] using hdepth)
          (length_chars_obj members ▸ hfuel) hordered rest
      have hvalue : value fuel (d + 1) (chars (.obj members) ++ rest)
          = (do
              let found ← Reader.members (string fuel) (pushMember fuel d) fuel true []
              return Json.obj found : Reader Json) (memberChars members ++ '}' :: rest) := by
        rw [chars, List.cons_append, List.append_assoc]
        rfl
      rw [hvalue, bind_apply, hread, reread]
      cases rereadMembers members <;> rfl

/-- The items of an array are read back. -/
theorem items_itemChars (fuel : Nat) : ∀ (items : List Json) (d : Nat), itemsDepth items ≤ d →
    (itemChars items).length + 2 ≤ fuel → OrderedItems items → ∀ rest : List Char,
      Reader.items (pushItem fuel d) fuel true [] (itemChars items ++ ']' :: rest)
        = (rereadItems items).map fun vs => (vs.reverse, rest)
  | [], d, _, hfuel, _ => by
      intro rest
      obtain ⟨n, rfl⟩ := Nat.exists_eq_succ_of_ne_zero (Nat.ne_of_gt (Nat.zero_lt_of_lt hfuel))
      rfl
  | v :: items, d, hd, hfuel, hordered => by
      intro rest
      have hlength := length_le_itemChars (v :: items)
      rw [itemChars_cons, List.length_append] at hfuel hlength
      rw [itemsDepth] at hd
      rw [List.length_cons] at hlength
      obtain ⟨n, hn⟩ : ∃ n, fuel = n + 1 := ⟨fuel - 1, by omega⟩
      have hread := items_item (n := n) [] (nextItem_starts (starts_chars v) _)
        (takes_value fuel v d (by omega) (by omega) hordered.1)
        (fun found => items_itemsAfter fuel items d n (by omega) (by omega) hordered.2 (by omega)
          found rest)
      rw [← hn, ← List.append_assoc, ← itemChars_cons] at hread
      simpa using hread

/-- The items after others are read back. -/
theorem items_itemsAfter (fuel : Nat) : ∀ (items : List Json) (d n : Nat), itemsDepth items ≤ d →
    (itemsAfter items).length ≤ fuel → OrderedItems items → items.length < n →
    ∀ (found : List Json) (rest : List Char),
      Reader.items (pushItem fuel d) n false found (itemsAfter items ++ ']' :: rest)
        = (rereadItems items).map fun vs => (vs.reverse ++ found, rest)
  | [], d, n, _, _, _, hn => by
      intro found rest
      obtain ⟨n, rfl⟩ := Nat.exists_eq_succ_of_ne_zero (Nat.ne_of_gt hn)
      rfl
  | v :: items, d, n, hd, hfuel, hordered, hn => by
      intro found rest
      obtain ⟨n, rfl⟩ := Nat.exists_eq_succ_of_ne_zero (Nat.ne_of_gt (Nat.zero_lt_of_lt hn))
      rw [itemsAfter, itemChars_cons, List.cons_append, List.append_assoc]
      rw [itemsAfter, itemChars_cons, List.length_cons, List.length_append] at hfuel
      rw [itemsDepth] at hd
      rw [List.length_cons] at hn
      exact items_item found (nextItem_comma (starts_chars v) _)
        (takes_value fuel v d (by omega) (by omega) hordered.1)
        (fun found => items_itemsAfter fuel items d n (by omega) (by omega) hordered.2 (by omega)
          found rest)

/-- The members of an object are read back. -/
theorem members_memberChars (fuel : Nat) : ∀ (members : List (String × Json)) (d : Nat),
    membersDepth members ≤ d → (memberChars members).length + 2 ≤ fuel →
    InOrder members ∧ OrderedMembers members → ∀ rest : List Char,
      Reader.members (string fuel) (pushMember fuel d) fuel true []
          (memberChars members ++ '}' :: rest)
        = (rereadMembers members).map (·, rest)
  | [], d, _, hfuel, _ => by
      intro rest
      obtain ⟨n, rfl⟩ := Nat.exists_eq_succ_of_ne_zero (Nat.ne_of_gt (Nat.zero_lt_of_lt hfuel))
      rfl
  | (k, v) :: members, d, hd, hfuel, hordered => by
      intro rest
      have hlength := length_le_memberChars ((k, v) :: members)
      rw [memberChars_cons] at hfuel hlength ⊢
      simp only [List.length_append, List.length_cons] at hfuel hlength
      rw [membersDepth] at hd
      obtain ⟨n, hn⟩ : ∃ n, fuel = n + 1 := ⟨fuel - 1, by omega⟩
      have hread := members_member (k := n) [] (nextMember_quoted k _)
        (by omega) (by simp) (takes_value fuel v d (by omega) (by omega) hordered.2.1)
        (fun w => members_membersAfter fuel members d n (by omega) (by omega) hordered.2.2
          (List.pairwise_cons.1 hordered.1).2 (by omega) [(k, w)]
          (by simpa using (List.pairwise_cons.1 hordered.1).1) rest)
      rw [← hn] at hread
      simpa using hread

/-- The members after others are read back, if all others are below
them. -/
theorem members_membersAfter (fuel : Nat) : ∀ (members : List (String × Json)) (d n : Nat),
    membersDepth members ≤ d → (membersAfter members).length ≤ fuel → OrderedMembers members →
    InOrder members → members.length < n →
    ∀ found : List (String × Json), (∀ m ∈ found, ∀ m' ∈ members, m.1 < m'.1) →
    ∀ rest : List Char,
      Reader.members (string fuel) (pushMember fuel d) n false found
          (membersAfter members ++ '}' :: rest)
        = (rereadMembers members).map fun ms => (found ++ ms, rest)
  | [], d, n, _, _, _, _, hn => by
      intro found _ rest
      obtain ⟨n, rfl⟩ := Nat.exists_eq_succ_of_ne_zero (Nat.ne_of_gt hn)
      rw [rereadMembers]
      simp only [Except.map, List.append_nil]
      rfl
  | (k, v) :: members, d, n, hd, hfuel, hordered, hin, hn => by
      intro found hfound rest
      obtain ⟨n, rfl⟩ := Nat.exists_eq_succ_of_ne_zero (Nat.ne_of_gt (Nat.zero_lt_of_lt hn))
      rw [membersAfter, memberChars_cons] at hfuel ⊢
      simp only [List.length_append, List.length_cons] at hfuel hn
      rw [membersDepth] at hd
      simp only [List.cons_append, List.append_assoc]
      refine members_member found (nextMember_comma k _) (by omega)
        (fun m hm => hfound m hm _ (List.mem_cons_self ..))
        (takes_value fuel v d (by omega) (by omega) hordered.1)
        (fun w => members_membersAfter fuel members d n (by omega) (by omega) hordered.2
          (List.pairwise_cons.1 hin).2 (by omega) (found ++ [(k, w)]) ?_ rest)
      intro m hm m' hm'
      rcases List.mem_append.1 hm with hm | hm
      · exact hfound m hm m' (List.mem_cons_of_mem _ hm')
      · obtain rfl : m = (k, w) := by simpa using hm
        exact (List.pairwise_cons.1 hin).1 m' hm'

end

end Reader

/-- A printed value is read as the value with each number as its text is
read. -/
theorem read_compact {v : Json} (hdepth : v.depth ≤ maxDepth) (hordered : v.Ordered) :
    read v.compact = reread v := by
  have h := Reader.takes_value ((chars v).length + 1) v maxDepth hdepth (by omega) hordered []
    ends_nil
  rw [List.append_nil] at h
  unfold read Reader.run compact
  rw [String.toList_ofList]
  dsimp only
  rw [h]
  cases reread v <;> rfl

mutual

/-- Every number in the value is read as itself. -/
def Exact : Json → Prop
  | num n => rereadNumber n = .ok n
  | arr items => ExactItems items
  | obj members => ExactMembers members
  | _ => True

def ExactItems : List Json → Prop
  | [] => True
  | v :: rest => Exact v ∧ ExactItems rest

def ExactMembers : List (String × Json) → Prop
  | [] => True
  | (_, v) :: rest => Exact v ∧ ExactMembers rest

end

mutual

theorem reread_exact : ∀ v : Json, v.Exact → reread v = .ok v
  | .null, _ | .bool _, _ | .str _, _ => rfl
  | .num n, h => by
      rw [reread, show rereadNumber n = .ok n from h]
      rfl
  | .arr items, h => by
      rw [reread, rereadItems_exact items h]
      rfl
  | .obj members, h => by
      rw [reread, rereadMembers_exact members h]
      rfl

theorem rereadItems_exact : ∀ items : List Json, ExactItems items → rereadItems items = .ok items
  | [], _ => rfl
  | v :: items, h => by
      rw [rereadItems, reread_exact v h.1, rereadItems_exact items h.2]
      rfl

theorem rereadMembers_exact : ∀ members : List (String × Json), ExactMembers members →
    rereadMembers members = .ok members
  | [], _ => rfl
  | (_, v) :: members, h => by
      rw [rereadMembers, reread_exact v h.1, rereadMembers_exact members h.2]
      rfl

end

/-- A value that is not too deep, with its members in order and numbers
that are read as themselves. -/
structure Lasting (v : Json) : Prop where
  shallow : v.depth ≤ maxDepth
  ordered : v.Ordered
  exact : v.Exact

/-- Such a value survives being printed and read. -/
theorem Lasting.read_compact {v : Json} (h : v.Lasting) : read v.compact = .ok v := by
  rw [Json.read_compact h.shallow h.ordered, reread_exact v h.exact]

end Depot.Json
