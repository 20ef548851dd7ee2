import LiveCheck.Proofs.Json.Ascii
import LiveCheck.Proofs.Json.Number
import LiveCheck.Proofs.Json.String
import LiveCheck.Proofs.Table

/-!
# Values read back

Every part of a value that is written with its items and members on lines of their own is read as
what it was written for, up to the text behind it (`readValue_indentedAt`): the induction is on the
value, with the reading of one item and of one member as its steps. So the text of a value is read
as this value (`read_indented`), if its strings are texts, its numbers can be written, its objects
give no name twice, and it is not nested too deep.
-/

namespace LiveCheck

namespace Json

/-! ## Values that can be kept -/

mutual

/-- The value can be kept in a file: its strings are texts, its whole numbers are not too long, its
    other numbers are numbers, and its objects give each name once. -/
def Storable : Json → Prop
  | null => True
  | bool _ => True
  | int n => (Nat.toDigits 10 n.natAbs).length ≤ digitLimit
  | float x => Numerical x
  | string s => ∃ t, s = .text t
  | list items => StorableItems items
  | object members => (members.map (·.1)).Nodup ∧ StorableMembers members

/-- The items can be kept in a file. -/
def StorableItems : List Json → Prop
  | [] => True
  | item :: rest => Storable item ∧ StorableItems rest

/-- The members can be kept in a file. -/
def StorableMembers : List (JsonString × Json) → Prop
  | [] => True
  | (name, value) :: rest => (∃ t, name = .text t) ∧ Storable value ∧ StorableMembers rest

end

mutual

/-- How deep containers are nested in a value, itself counted. -/
def nesting : Json → Nat
  | list items => nestingItems items + 1
  | object members => nestingMembers members + 1
  | _ => 0

/-- How deep containers are nested in items. -/
def nestingItems : List Json → Nat
  | [] => 0
  | item :: rest => max (nesting item) (nestingItems rest)

/-- How deep containers are nested in the values of members. -/
def nestingMembers : List (JsonString × Json) → Nat
  | [] => 0
  | (_, value) :: rest => max (nesting value) (nestingMembers rest)

end

/-! ## White space -/

/-- A line break and the indentation of the next line. -/
def lineStart (depth : Nat) : Text := '\n' :: List.replicate (2 * depth) ' '

variable {fuel room depth : Nat} {text rest : Text}

/-- A line break and an indentation are passed over. -/
theorem skipSpace_lineStart (depth : Nat) (text : Text) :
    skipSpace (lineStart depth ++ text) = skipSpace text := by
  refine List.dropWhile_append_of_pos fun c hc => ?_
  rcases List.mem_cons.1 hc with rfl | hc
  · rfl
  · rw [List.eq_of_mem_replicate hc]
    rfl

theorem stops_lineStart (depth : Nat) (text : Text) : Stops (lineStart depth ++ text) :=
  ⟨rfl, by simp [lineStart], by simp [lineStart], by simp [lineStart]⟩

theorem stops_comma (text : Text) : Stops (',' :: text) := ⟨rfl, by simp, by simp, by simp⟩

/-- A container that is not empty has its parts on lines of their own. -/
theorem bracketed_of_ne_nil (opening closing : Char) (depth : Nat) {parts : List Text}
    (h : parts ≠ []) : bracketed opening closing depth parts =
      opening :: (lineStart (depth + 1) ++ (Text.join (',' :: lineStart (depth + 1)) parts ++
        (lineStart depth ++ [closing]))) := by
  cases parts with
  | nil => exact absurd rfl h
  | cons part parts => simp [bracketed, lineStart]

/-! ## Where values begin -/

/-- No value begins with white space or a closing bracket. -/
theorem readValue_malformed {c : Char} (hc : c ∈ [' ', '\t', '\n', '\r', ']']) (text : Text) :
    readValue fuel room (c :: text) = .error .malformed := by
  cases fuel with
  | zero => rfl
  | succ fuel =>
    simp only [List.mem_cons, List.not_mem_nil, or_false] at hc
    rcases hc with rfl | rfl | rfl | rfl | rfl <;> rfl

/-- A value that can be read begins with a character of its own. -/
theorem head_of_readValue {result : Json × Text} (h : readValue fuel room text = .ok result) :
    ∃ c more, text = c :: more ∧ isSpace c = false ∧ c ≠ ']' := by
  cases text with
  | nil => cases fuel <;> cases h
  | cons c more =>
    have hc : c ∉ [' ', '\t', '\n', '\r', ']'] := fun hc => by
      rw [readValue_malformed hc] at h
      cases h
    simp only [List.mem_cons, List.not_mem_nil, or_false, not_or] at hc
    exact ⟨c, more, rfl, by simp [isSpace, hc], hc.2.2.2.2⟩

/-- Items that can be read begin with a character of their own, and with no closing bracket. -/
theorem head_of_readItems {result : List Json × Text} (h : readItems fuel room text = .ok result) :
    ∃ c more, text = c :: more ∧ isSpace c = false ∧ c ≠ ']' := by
  cases fuel with
  | zero => cases h
  | succ fuel =>
    cases hvalue : readValue fuel room text with
    | ok found => exact head_of_readValue hvalue
    | error fault =>
      rw [readItems, hvalue] at h
      cases h

theorem skipSpace_of_head {c : Char} (h : isSpace c = false) (more : Text) :
    skipSpace (c :: more) = c :: more :=
  List.dropWhile_cons_of_neg (by simp [h])

/-! ## One step of reading -/

/-- What is no string and no container is a word or a number. -/
theorem readValue_scalar {value : Json} (h : readScalar text = .ok (value, rest)) :
    readValue (fuel + 1) room text = .ok (value, rest) := by
  rw [readValue.eq_def]
  dsimp only
  split
  · cases h
  · cases h
  · cases h
  · exact h

/-- A string between quotes, up to its closing quote. -/
theorem quoteString_append (t rest : Text) :
    quoteString (.text t) ++ rest = '"' :: (t.flatMap escapeChar ++ '"' :: rest) := by
  simp [quoteString, JsonString.letters, List.flatMap_map, escapeLetter]

/-- A text is read back from its escapes. -/
theorem readString_quoted (t rest : Text) :
    readString (t.flatMap escapeChar ++ '"' :: rest).length.succ
      (t.flatMap escapeChar ++ '"' :: rest) = .ok (.text t, rest) := by
  refine readString_text ?_ rest
  have := length_le_flatMap_escapeChar t
  rw [List.length_append]
  omega

/-- A string is read back from its quoted form. -/
theorem readValue_string (t rest : Text) :
    readValue (fuel + 1) room (quoteString (.text t) ++ rest) = .ok (.text t, rest) := by
  rw [quoteString_append, readValue, readString_quoted]
  rfl

/-- A list is read if its items are. -/
theorem readValue_list {items : List Json} (h : readItems fuel room text = .ok (items, rest)) :
    readValue (fuel + 1) (room + 1) ('[' :: (lineStart depth ++ text)) =
      .ok (list items, rest) := by
  obtain ⟨c, more, rfl, hspace, hclosing⟩ := head_of_readItems h
  have hitems : skipSpace (lineStart depth ++ c :: more) = c :: more := by
    rw [skipSpace_lineStart, skipSpace_of_head hspace]
  simp [readValue, hitems, hclosing, h, bind, Except.bind, pure, Except.pure]

/-- The last item is read up to the bracket. -/
theorem readItems_last {item : Json}
    (h : readValue fuel room text = .ok (item, lineStart depth ++ ']' :: rest)) :
    readItems (fuel + 1) room text = .ok ([item], rest) := by
  have hend : skipSpace (lineStart depth ++ ']' :: rest) = ']' :: rest := by
    rw [skipSpace_lineStart, skipSpace_of_head rfl]
  simp [readItems, h, hend, bind, Except.bind, pure, Except.pure]

/-- An item is read up to the comma, and the others after it. -/
theorem readItems_cons {item : Json} {items : List Json} {more : Text}
    (h : readValue fuel room text = .ok (item, ',' :: (lineStart depth ++ more)))
    (hmore : readItems fuel room more = .ok (items, rest)) :
    readItems (fuel + 1) room text = .ok (item :: items, rest) := by
  obtain ⟨c, tail, rfl, hspace, -⟩ := head_of_readItems hmore
  have hcomma : skipSpace (',' :: (lineStart depth ++ c :: tail)) =
      ',' :: (lineStart depth ++ c :: tail) := skipSpace_of_head rfl _
  have hitems : skipSpace (lineStart depth ++ c :: tail) = c :: tail := by
    rw [skipSpace_lineStart, skipSpace_of_head hspace]
  simp [readItems, h, hcomma, hitems, hmore, bind, Except.bind, pure, Except.pure]

theorem head_of_readMembers {members : List (JsonString × Json)}
    {result : List (JsonString × Json) × Text}
    (h : readMembers fuel room members text = .ok result) : ∃ more, text = '"' :: more := by
  cases fuel with
  | zero => cases h
  | succ fuel =>
    by_contra hquote
    rw [readMembers.eq_def] at h
    dsimp only at h
    split at h
    · exact hquote ⟨_, rfl⟩
    · cases h

/-- An object is read if its members are. -/
theorem readValue_object {members : List (JsonString × Json)}
    (h : readMembers fuel room [] text = .ok (members, rest)) :
    readValue (fuel + 1) (room + 1) ('\x7b' :: (lineStart depth ++ text)) =
      .ok (object members, rest) := by
  obtain ⟨more, rfl⟩ := head_of_readMembers h
  have hmembers : skipSpace (lineStart depth ++ '"' :: more) = '"' :: more := by
    rw [skipSpace_lineStart, skipSpace_of_head rfl]
  simp [readValue, hmembers, h, bind, Except.bind, pure, Except.pure]

/-- A new member comes last. -/
theorem putMember_of_not_mem {name : JsonString} {members : List (JsonString × Json)}
    (h : name ∉ members.map (·.1)) (value : Json) :
    putMember name value members = members ++ [(name, value)] := by
  induction members with
  | nil => rfl
  | cons m members ih =>
    rw [List.map_cons, List.mem_cons, not_or] at h
    rw [putMember, if_neg (Ne.symm h.1), ih h.2, List.cons_append]

variable {members : List (JsonString × Json)} {name : Text} {value : Json}

/-- The last member is read up to the brace. -/
theorem readMembers_last (hname : .text name ∉ members.map (·.1))
    (h : readValue fuel room text = .ok (value, lineStart depth ++ '\x7d' :: rest)) :
    readMembers (fuel + 1) room members (quoteString (.text name) ++ ':' :: ' ' :: text) =
      .ok (members ++ [(.text name, value)], rest) := by
  obtain ⟨c, more, rfl, hspace, -⟩ := head_of_readValue h
  have hcolon : skipSpace (':' :: ' ' :: c :: more) = ':' :: ' ' :: c :: more :=
    skipSpace_of_head rfl _
  have hvalue : skipSpace (' ' :: c :: more) = c :: more := skipSpace_of_head hspace more
  have hend : skipSpace (lineStart depth ++ '\x7d' :: rest) = '\x7d' :: rest := by
    rw [skipSpace_lineStart, skipSpace_of_head rfl]
  rw [quoteString_append, readMembers, readString_quoted]
  simp [hcolon, hvalue, h, hend, putMember_of_not_mem hname, bind, Except.bind, pure, Except.pure]

/-- A member is read up to the comma, and the others after it. -/
theorem readMembers_cons {more : Text} {result : List (JsonString × Json) × Text}
    (hname : .text name ∉ members.map (·.1))
    (h : readValue fuel room text = .ok (value, ',' :: (lineStart depth ++ more)))
    (hmore : readMembers fuel room (members ++ [(.text name, value)]) more = .ok result) :
    readMembers (fuel + 1) room members (quoteString (.text name) ++ ':' :: ' ' :: text) =
      .ok result := by
  obtain ⟨tail, rfl⟩ := head_of_readMembers hmore
  obtain ⟨c, more, rfl, hspace, -⟩ := head_of_readValue h
  have hcolon : skipSpace (':' :: ' ' :: c :: more) = ':' :: ' ' :: c :: more :=
    skipSpace_of_head rfl _
  have hvalue : skipSpace (' ' :: c :: more) = c :: more := skipSpace_of_head hspace more
  have hcomma : skipSpace (',' :: (lineStart depth ++ '"' :: tail)) =
      ',' :: (lineStart depth ++ '"' :: tail) := skipSpace_of_head rfl _
  have hmembers : skipSpace (lineStart depth ++ '"' :: tail) = '"' :: tail := by
    rw [skipSpace_lineStart, skipSpace_of_head rfl]
  rw [quoteString_append, readMembers, readString_quoted]
  simp [hcolon, hvalue, h, hcomma, hmembers, putMember_of_not_mem hname, hmore, bind, Except.bind]

/-! ## Whole values -/

theorem indentedItems_ne_nil {items : List Json} (h : items ≠ []) (depth : Nat) :
    indentedItems depth items ≠ [] := by
  cases items with
  | nil => exact absurd rfl h
  | cons item items => exact List.cons_ne_nil _ _

theorem indentedMembers_ne_nil {members : List (JsonString × Json)} (h : members ≠ [])
    (depth : Nat) : indentedMembers depth members ≠ [] := by
  cases members with
  | nil => exact absurd rfl h
  | cons m members => exact List.cons_ne_nil _ _

/-- The text of a list with items. -/
theorem indentedAt_list {items : List Json} (h : items ≠ []) (depth : Nat) (rest : Text) :
    indentedAt depth (list items) ++ rest = '[' :: (lineStart (depth + 1) ++
      (Text.join (',' :: lineStart (depth + 1)) (indentedItems (depth + 1) items) ++
        (lineStart depth ++ ']' :: rest))) := by
  rw [indentedAt, bracketed_of_ne_nil _ _ _ (indentedItems_ne_nil h _)]
  simp

/-- The text of an object with members. -/
theorem indentedAt_object {members : List (JsonString × Json)} (h : members ≠ []) (depth : Nat)
    (rest : Text) :
    indentedAt depth (object members) ++ rest = '\x7b' :: (lineStart (depth + 1) ++
      (Text.join (',' :: lineStart (depth + 1)) (indentedMembers (depth + 1) members) ++
        (lineStart depth ++ '\x7d' :: rest))) := by
  rw [indentedAt, bracketed_of_ne_nil _ _ _ (indentedMembers_ne_nil h _)]
  simp

mutual

/-- A value is read back, up to the text behind it. -/
theorem readValue_indentedAt (value : Json) (h : Storable value) {fuel room depth : Nat}
    {rest : Text} (hrest : Stops rest) (hroom : nesting value ≤ room)
    (hfuel : 2 * (indentedAt depth value).length + 1 ≤ fuel) :
    readValue fuel room (indentedAt depth value ++ rest) = .ok (value, rest) := by
  obtain ⟨fuel, rfl⟩ : ∃ k, fuel = k + 1 := ⟨fuel - 1, by omega⟩
  cases value with
  | null => rfl
  | bool b => cases b <;> rfl
  | int n => exact readValue_scalar (readScalar_decimal h hrest)
  | float x => exact readValue_scalar (readScalar_floatText h hrest)
  | string s =>
    obtain ⟨t, rfl⟩ := h
    exact readValue_string t rest
  -- An empty container is written without line ends, so it is a case of its own.
  | list items =>
    obtain ⟨room, rfl⟩ : ∃ k, room = k + 1 := ⟨room - 1, by rw [nesting] at hroom; omega⟩
    by_cases hnil : items = []
    · subst hnil
      rfl
    · rw [indentedAt_list hnil]
      refine readValue_list (readItems_indented items hnil h ?_ ?_)
      · rw [nesting] at hroom
        omega
      · have hlength := congrArg List.length (indentedAt_list hnil depth [])
        simp only [List.append_nil, List.length_cons, List.length_append] at hlength
        omega
  | object members =>
    obtain ⟨room, rfl⟩ : ∃ k, room = k + 1 := ⟨room - 1, by rw [nesting] at hroom; omega⟩
    by_cases hnil : members = []
    · subst hnil
      rfl
    · rw [indentedAt_object hnil]
      refine readValue_object (readMembers_indented [] members hnil h.1 h.2 ?_ ?_)
      · rw [nesting] at hroom
        omega
      · have hlength := congrArg List.length (indentedAt_object hnil depth [])
        simp only [List.append_nil, List.length_cons, List.length_append] at hlength
        omega

/-- Items are read back, up to the closing bracket. -/
theorem readItems_indented (items : List Json) (hnil : items ≠ []) (h : StorableItems items)
    {fuel room depth above : Nat} {rest : Text} (hroom : nestingItems items ≤ room)
    (hfuel : 2 * (Text.join (',' :: lineStart depth) (indentedItems depth items)).length + 2 ≤
      fuel) :
    readItems fuel room (Text.join (',' :: lineStart depth) (indentedItems depth items) ++
      (lineStart above ++ ']' :: rest)) = .ok (items, rest) := by
  obtain ⟨fuel, rfl⟩ : ∃ k, fuel = k + 1 := ⟨fuel - 1, by omega⟩
  match items, h with
  | [], _ => exact absurd rfl hnil
  | [item], h =>
    rw [nestingItems] at hroom
    rw [indentedItems, indentedItems, Text.join_singleton] at hfuel ⊢
    exact readItems_last (readValue_indentedAt item h.1 (stops_lineStart _ _) (by omega) (by omega))
  | item :: next :: more, h =>
    have hjoin := Text.join_cons_cons (',' :: lineStart depth) (indentedAt depth item)
      (indentedAt depth next) (indentedItems depth more)
    rw [nestingItems] at hroom
    rw [indentedItems, indentedItems, hjoin, ← indentedItems] at hfuel ⊢
    simp only [List.length_append, List.length_cons] at hfuel
    simp only [List.append_assoc, List.cons_append]
    exact readItems_cons (readValue_indentedAt item h.1 (stops_comma _) (by omega) (by omega))
      (readItems_indented (next :: more) (List.cons_ne_nil _ _) h.2 (by omega) (by omega))

/-- Members are read back behind those that were read before, up to the closing brace. -/
theorem readMembers_indented (known members : List (JsonString × Json)) (hnil : members ≠ [])
    (hnames : ((known ++ members).map (·.1)).Nodup) (h : StorableMembers members)
    {fuel room depth above : Nat} {rest : Text} (hroom : nestingMembers members ≤ room)
    (hfuel : 2 * (Text.join (',' :: lineStart depth) (indentedMembers depth members)).length + 2 ≤
      fuel) :
    readMembers fuel room known
        (Text.join (',' :: lineStart depth) (indentedMembers depth members) ++
          (lineStart above ++ '\x7d' :: rest)) = .ok (known ++ members, rest) := by
  obtain ⟨fuel, rfl⟩ : ∃ k, fuel = k + 1 := ⟨fuel - 1, by omega⟩
  match members, h with
  | [], _ => exact absurd rfl hnil
  | [(_, value)], ⟨⟨name, rfl⟩, hvalue, _⟩ =>
    have hname : .text name ∉ known.map (·.1) := Table.not_mem_of_nodup hnames
    rw [nestingMembers] at hroom
    rw [indentedMembers, indentedMembers, Text.join_singleton] at hfuel ⊢
    simp only [List.length_append] at hfuel
    simp only [List.append_assoc, List.cons_append, List.nil_append]
    exact readMembers_last hname
      (readValue_indentedAt value hvalue (stops_lineStart _ _) (by omega) (by omega))
  | (_, value) :: (next, follower) :: more, ⟨⟨name, rfl⟩, hvalue, hstorable⟩ =>
    have hname : .text name ∉ known.map (·.1) := Table.not_mem_of_nodup hnames
    have hjoin := Text.join_cons_cons (',' :: lineStart depth)
      (quoteString (.text name) ++ [':', ' '] ++ indentedAt depth value)
      (quoteString next ++ [':', ' '] ++ indentedAt depth follower) (indentedMembers depth more)
    rw [nestingMembers] at hroom
    rw [indentedMembers, indentedMembers, hjoin, ← indentedMembers] at hfuel ⊢
    simp only [List.length_append, List.length_cons] at hfuel
    rw [List.append_cons known] at hnames
    simp only [List.append_assoc, List.cons_append, List.nil_append]
    rw [List.append_cons known]
    exact readMembers_cons hname
      (readValue_indentedAt value hvalue (stops_comma _) (by omega) (by omega))
      (readMembers_indented _ ((next, follower) :: more) (List.cons_ne_nil _ _) hnames hstorable
        (by omega) (by omega))

end

/-- The text of a value is read as this value. -/
theorem read_indented {room : Nat} {value : Json} (h : Storable value)
    (hnesting : nesting value ≤ room) : read room (indented value) = .ok value := by
  have hread : readValue (2 * (indented value).length + 2) room (indented value ++ []) =
      .ok (value, []) :=
    readValue_indentedAt value h ⟨rfl, by simp, by simp, by simp⟩ hnesting (Nat.le_succ _)
  rw [List.append_nil] at hread
  obtain ⟨c, more, htext, hspace, -⟩ := head_of_readValue hread
  have hskip : skipSpace (indented value) = indented value := by
    rw [htext, skipSpace_of_head hspace]
  rw [read, hskip, hread]
  rfl

end Json

end LiveCheck
