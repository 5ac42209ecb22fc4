import ViewFilters.Json.Reader
import ViewFilters.Proofs.Json.Token

/-!
# ViewFilters.Proofs.Json.ReadBack

JSON text is read as the value that is written there (`read?_of_written`).

The induction is on how the value is written, with the state of the reader left
open: wherever a value may begin, its text takes the reader to the state after
that value, and the reader goes on with what follows (`readable_of_written`).
The items of an array and the members of an object are an induction of their
own, over what the reader keeps of the parts before (`finish?_items`,
`finish?_members`).

A value whose numbers are numbers (`WellFormed`) is printed in one of the ways to
write it, so it is read back as it was (`read?_pretty`).

The values that a program makes from texts, numbers and named members are well
formed, and using them gives back what they were made from.
-/

namespace ViewFilters.Json

/-! ## the reader on text -/

namespace Reader

/-- The value that the reader comes to at the end of a text. -/
def finish? (r : Reader) (cs : List Char) : Option Json :=
  (tokens? cs).bind fun ts => (ts.foldlM take? r).bind result?

theorem finish?_nil (v : Json) : (after v []).finish? [] = some v := by
  simp [finish?, tokens?, result?]

/-- The reader takes the token at the start and goes on with what follows it. -/
theorem finish?_of_scanToken {r : Reader} {cs rest : List Char} {t : Token}
    (h : scanToken cs = some (t, rest)) : r.finish? cs = (r.take? t).bind (·.finish? rest) := by
  simp only [finish?, tokens?_of_scanToken h]
  cases tokens? rest with
  | none => simp
  | some ts =>
      simp only [Option.map_some, Option.bind_some, List.foldlM_cons, Option.bind_eq_bind,
        Option.bind_assoc]

theorem finish?_blank_append {blank : List Char} (h : IsBlank blank) (r : Reader)
    (cs : List Char) : r.finish? (blank ++ cs) = r.finish? cs := by
  rw [finish?, tokens?_blank_append h, finish?]

/-- A reader that takes the tokens of a value as one does where a value has to
come.  The end of an array is left out: it may come in place of a first item. -/
def Begins (r : Reader) (stack : List Frame) : Prop :=
  ∀ t ≠ .endArray, r.take? t = begin? stack t

theorem begins_value (stack : List Frame) : (value stack).Begins stack := fun _ _ => rfl

theorem begins_firstItem (stack : List Frame) : (firstItem stack).Begins (.items [] :: stack) :=
  fun _ ht => if_neg ht

/-- A reader that takes a key where a member has to come. -/
def BeginsMember (r : Reader) (done : Members) (stack : List Frame) : Prop :=
  ∀ name, r.take? (.string name) = some (.colon done name stack)

theorem beginsMember_key (done : Members) (stack : List Frame) :
    (key done stack).BeginsMember done stack :=
  fun _ => rfl

theorem beginsMember_firstKey (stack : List Frame) : (firstKey stack).BeginsMember [] stack :=
  fun _ => rfl

end Reader

open Reader

/-! ## values one after another -/

/-- A text that takes the reader from where the value may begin to where it has ended. -/
def Readable (j : Json) (cs : List Char) : Prop :=
  ∀ {r : Reader} {stack : List Frame} {rest : List Char},
    r.Begins stack → EndsNumber rest →
      r.finish? (cs ++ rest) = (after j stack).finish? rest

/-- A value of one token. -/
theorem readable_of_scanToken {j : Json} {cs : List Char} {t : Token} (ht : t ≠ .endArray)
    (hbegin : ∀ stack, begin? stack t = some (after j stack))
    (hscan : ∀ rest, EndsNumber rest → scanToken (cs ++ rest) = some (t, rest)) :
    Readable j cs := by
  intro r stack rest hr hrest
  rw [finish?_of_scanToken (hscan rest hrest), hr t ht, hbegin, Option.bind_some]

variable {blank : List Char} {stack : List Frame} {r : Reader}

theorem endsNumber_blank_append {rest : List Char} (h : IsBlank blank) (hrest : EndsNumber rest) :
    EndsNumber (blank ++ rest) := by
  cases blank with
  | nil => exact hrest
  | cons c blank =>
      have hspace : isSpace c = true := h c List.mem_cons_self
      simp only [isSpace, Bool.or_eq_true, decide_eq_true_eq] at hspace
      obtain ((rfl | rfl) | rfl) | rfl := hspace
      all_goals exact endsNumber_cons (by decide) _

/-- The items of an array from any of them on, and its end. -/
theorem finish?_items {items : List (Json × List Char)} (hne : items ≠ [])
    (h : ∀ item ∈ items, Readable item.1 item.2) (hblank : IsBlank blank) {done : List Json}
    (hr : r.Begins (.items done :: stack)) (rest : List Char) :
    r.finish? (joined ',' (items.map (·.2)) ++ (blank ++ ']' :: rest)) =
      (after (.array (done.reverse ++ items.map (·.1))) stack).finish? rest := by
  induction items generalizing r done with
  | nil => contradiction
  | cons item items ih =>
      obtain ⟨hitem, hitems⟩ := List.forall_mem_cons.1 h
      by_cases hlast : items = []
      · subst hlast
        have hend : EndsNumber (blank ++ ']' :: rest) :=
          endsNumber_blank_append hblank (endsNumber_cons (by decide) rest)
        rw [List.map_singleton, joined_singleton, hitem hr hend, finish?_blank_append hblank,
          finish?_of_scanToken (t := .endArray) rfl]
        simp [take?, continue?]
      · have hparts : items.map (·.2) ≠ [] := by simpa using hlast
        rw [List.map_cons, joined_cons hparts, List.append_assoc, List.cons_append,
          hitem hr (endsNumber_cons (by decide) _), finish?_of_scanToken (t := .comma) rfl]
        simp only [take?, continue?, Option.bind_some]
        rw [ih hlast hitems (begins_value _)]
        simp

/-- A key, up to its colon. -/
theorem finish?_key {name : Option String} {key : List Char} (h : KeyText name key)
    {done : Members} (hr : r.BeginsMember done stack) (cs : List Char) :
    r.finish? (key ++ cs) = (value (.members done name :: stack)).finish? cs := by
  obtain ⟨hbefore, hquoted, hafter⟩ := h
  simp only [List.append_assoc, List.cons_append, List.nil_append]
  rw [finish?_blank_append hbefore, finish?_of_scanToken (scanToken_quotedText_append hquoted _),
    hr, Option.bind_some, finish?_blank_append hafter, finish?_of_scanToken (t := .colon) rfl]
  rfl

/-- The members of an object from any of them on, and its end. -/
theorem finish?_members {members : List MemberText} (hne : members ≠ [])
    (h : ∀ m ∈ members, Readable m.value m.text) (hblank : IsBlank blank) {done : Members}
    (hr : r.BeginsMember done stack) (rest : List Char) :
    r.finish? (joined ',' (members.map MemberText.written) ++ (blank ++ '}' :: rest)) =
      (after (.object (done.reverse ++ members.map MemberText.member)) stack).finish? rest := by
  induction members generalizing r done with
  | nil => contradiction
  | cons m members ih =>
      obtain ⟨hm, hmembers⟩ := List.forall_mem_cons.1 h
      by_cases hlast : members = []
      · subst hlast
        have hend : EndsNumber (blank ++ '}' :: rest) :=
          endsNumber_blank_append hblank (endsNumber_cons (by decide) rest)
        rw [List.map_singleton, joined_singleton, MemberText.written, List.append_assoc,
          finish?_key m.isKey hr, hm (begins_value _) hend, finish?_blank_append hblank,
          finish?_of_scanToken (t := .endObject) rfl]
        simp [take?, continue?, MemberText.member]
      · have hparts : members.map MemberText.written ≠ [] := by simpa using hlast
        rw [List.map_cons, joined_cons hparts, MemberText.written, List.append_assoc,
          List.append_assoc, finish?_key m.isKey hr, List.cons_append,
          hm (begins_value _) (endsNumber_cons (by decide) _),
          finish?_of_scanToken (t := .comma) rfl]
        simp only [take?, continue?, Option.bind_some]
        rw [ih hlast hmembers (beginsMember_key _ _)]
        simp [MemberText.member]

/-! ## every value -/

/-- **Values**: wherever a value may begin, a text that it is written as is read as that value. -/
theorem readable_of_written {j : Json} {cs : List Char} (h : Written j cs) : Readable j cs := by
  induction h with
  | padded hbefore _ hafter ih =>
      intro r stack rest hr hrest
      rw [List.append_assoc, List.append_assoc, finish?_blank_append hbefore,
        ih hr (endsNumber_blank_append hafter hrest), finish?_blank_append hafter]
  | null => exact readable_of_scanToken (t := .null) (by decide) (fun _ => rfl) fun _ _ => rfl
  | boolTrue =>
      exact readable_of_scanToken (t := .bool true) (by decide) (fun _ => rfl) fun _ _ => rfl
  | boolFalse =>
      exact readable_of_scanToken (t := .bool false) (by decide) (fun _ => rfl) fun _ _ => rfl
  | number h =>
      exact readable_of_scanToken (by simp) (fun _ => rfl) fun rest hrest =>
        scanToken_numberText_append h hrest
  | string h =>
      exact readable_of_scanToken (by simp) (fun _ => rfl) fun rest _ =>
        scanToken_quotedText_append h rest
  | @array items blank _ hblank ih =>
      intro r stack rest hr hrest
      simp only [List.append_assoc, List.cons_append, List.nil_append]
      rw [finish?_of_scanToken (t := .beginArray) rfl, hr _ (by decide)]
      simp only [begin?, Option.bind_some]
      by_cases hempty : items = []
      · subst hempty
        rw [List.map_nil, joined_nil, List.nil_append, finish?_blank_append hblank]
        exact finish?_of_scanToken (t := .endArray) rfl
      · exact finish?_items hempty ih hblank (begins_firstItem stack) rest
  | @object members blank _ hblank ih =>
      intro r stack rest hr hrest
      simp only [List.append_assoc, List.cons_append, List.nil_append]
      rw [finish?_of_scanToken (t := .beginObject) rfl, hr _ (by decide)]
      simp only [begin?, Option.bind_some]
      by_cases hempty : members = []
      · subst hempty
        rw [List.map_nil, joined_nil, List.nil_append, finish?_blank_append hblank]
        exact finish?_of_scanToken (t := .endObject) rfl
      · exact finish?_members hempty ih hblank (beginsMember_firstKey stack) rest

/-- **Reading**: a text that a value is written as is read as that value. -/
theorem read?_of_written {j : Json} {cs : List Char} (h : Written j cs) :
    read? (String.ofList cs) = some j := by
  have hfinish := readable_of_written h (begins_value []) endsNumber_nil
  rw [List.append_nil, finish?_nil] at hfinish
  rw [read?, String.toList_ofList]
  exact hfinish

/-! ## printed values -/

/-- A value whose numbers, at any depth, are as they are written in JSON. -/
inductive WellFormed : Json → Prop where
  | null : WellFormed .null
  | bool (b : Bool) : WellFormed (.bool b)
  | number {literal : String} (h : IsNumber literal) : WellFormed (.number literal)
  | string (text : Option String) : WellFormed (.string text)
  | array {items : List Json} (h : ∀ j ∈ items, WellFormed j) : WellFormed (.array items)
  | object {members : Members} (h : ∀ m ∈ members, WellFormed m.2) : WellFormed (.object members)

theorem isBlank_newline (depth : Nat) : IsBlank (newline depth) := by
  refine isBlank_cons (by decide) fun c hc => ?_
  rw [List.eq_of_mem_replicate hc]
  decide

/-- An item as it is printed: on a line of its own. -/
def printedItem (depth : Nat) (j : Json) : Json × List Char :=
  (j, newline depth ++ layout depth j)

/-- A member as it is printed: its key on a line of its own, and its value after a space. -/
def printedMember (depth : Nat) (m : Option String × Json) : MemberText where
  name := m.1
  key := newline depth ++ (quote m.1 ++ ([] ++ [':']))
  value := m.2
  text := [' '] ++ layout depth m.2
  isKey := .mk (isBlank_newline depth) (quotedText_quote m.1) isBlank_nil

theorem layoutItems_eq_joined (depth : Nat) (j : Json) (js : List Json) :
    newline depth ++ (layout depth j ++ layoutItems depth js) =
      joined ',' (((j :: js).map (printedItem depth)).map (·.2)) := by
  induction js generalizing j with
  | nil => simp [layoutItems, printedItem]
  | cons next js ih =>
      rw [List.map_cons, List.map_cons, joined_cons (by simp), ← ih]
      simp [layoutItems, printedItem]

theorem layoutMembers_eq_joined (depth : Nat) (m : Option String × Json) (ms : Members) :
    newline depth ++ (quote m.1 ++ ':' :: ' ' :: (layout depth m.2 ++ layoutMembers depth ms)) =
      joined ',' (((m :: ms).map (printedMember depth)).map MemberText.written) := by
  induction ms generalizing m with
  | nil => simp [layoutMembers, printedMember, MemberText.written]
  | cons next ms ih =>
      rw [List.map_cons, List.map_cons, joined_cons (by simp), ← ih]
      simp [layoutMembers, printedMember, MemberText.written]

theorem written_array_printed {items : List Json} {depth : Nat}
    (h : ∀ j ∈ items, Written j (layout depth j)) (hblank : IsBlank blank) :
    Written (.array items)
      ('[' :: (joined ',' ((items.map (printedItem depth)).map (·.2)) ++ (blank ++ [']']))) := by
  have hitems : ∀ item ∈ items.map (printedItem depth), Written item.1 item.2 := by
    refine List.forall_mem_map.2 fun j hj => ?_
    simpa [printedItem] using Written.padded (isBlank_newline depth) (h j hj) isBlank_nil
  have hvalues : (items.map (printedItem depth)).map (·.1) = items := by
    simp [printedItem, Function.comp_def]
  have hwritten := Written.array hitems hblank
  rwa [hvalues] at hwritten

theorem written_object_printed {members : Members} {depth : Nat}
    (h : ∀ m ∈ members, Written m.2 (layout depth m.2)) (hblank : IsBlank blank) :
    Written (.object members) ('{' :: (joined ','
      ((members.map (printedMember depth)).map MemberText.written) ++ (blank ++ ['}']))) := by
  have hmembers : ∀ m ∈ members.map (printedMember depth), Written m.value m.text := by
    refine List.forall_mem_map.2 fun m hm => ?_
    simpa [printedMember] using
      Written.padded (isBlank_cons (by decide) isBlank_nil) (h m hm) isBlank_nil
  have hvalues : (members.map (printedMember depth)).map MemberText.member = members := by
    simp [printedMember, MemberText.member, Function.comp_def]
  have hwritten := Written.object hmembers hblank
  rwa [hvalues] at hwritten

/-- A well-formed value is printed in one of the ways to write it. -/
theorem written_layout {j : Json} (h : j.WellFormed) (depth : Nat) :
    Written j (layout depth j) := by
  induction h generalizing depth with
  | null => exact .null
  | bool b =>
      cases b with
      | true => exact .boolTrue
      | false => exact .boolFalse
  | @number literal h =>
      have hliteral : Written (.number (String.ofList literal.toList)) literal.toList :=
        .number h.numberText
      rwa [String.ofList_toList] at hliteral
  | string text => exact .string (quotedText_quote text)
  | @array items _ ih =>
      have hitems : ∀ j ∈ items, Written j (layout (depth + 1) j) :=
        fun j hj => ih j hj (depth + 1)
      cases items with
      | nil => exact written_array_printed hitems isBlank_nil
      | cons j js =>
          have hlines := written_array_printed hitems (isBlank_newline depth)
          rw [← layoutItems_eq_joined] at hlines
          simpa [layout] using hlines
  | @object members _ ih =>
      have hmembers : ∀ m ∈ members, Written m.2 (layout (depth + 1) m.2) :=
        fun m hm => ih m hm (depth + 1)
      cases members with
      | nil => exact written_object_printed hmembers isBlank_nil
      | cons m ms =>
          have hlines := written_object_printed hmembers (isBlank_newline depth)
          rw [← layoutMembers_eq_joined] at hlines
          simpa [layout] using hlines

/-- **Reading back**: a printed value is read as it was. -/
theorem read?_pretty {j : Json} (h : j.WellFormed) : read? j.pretty = some j :=
  read?_of_written (written_layout h 0)

/-! ## texts, numbers and records -/

theorem wellFormed_ofText (s : String) : (ofText s).WellFormed := .string (some s)

theorem wellFormed_ofTexts (items : List String) : (ofTexts items).WellFormed := by
  refine .array fun j hj => ?_
  obtain ⟨s, -, rfl⟩ := List.mem_map.1 hj
  exact wellFormed_ofText s

theorem wellFormed_ofNat (n : Nat) : (ofNat n).WellFormed := .number (isNumber_text n)

theorem wellFormed_ofMembers {members : List (String × Json)}
    (h : ∀ m ∈ members, m.2.WellFormed) : (ofMembers members).WellFormed := by
  refine .object fun m hm => ?_
  obtain ⟨m', hm', rfl⟩ := List.mem_map.1 hm
  exact h m' hm'

theorem texts?_ofTexts (items : List String) : (ofTexts items).texts? = some items := by
  simp only [ofTexts, texts?]
  induction items with
  | nil => rfl
  | cons s items ih => simp [ofText, text?, ih]

theorem uint32?_ofNat (n : UInt32) : (ofNat n.toNat).uint32? = some n := by
  rw [ofNat, uint32?, Decimal.text, String.toList_ofList, Decimal.uint32?_digits]

theorem uint64?_ofNat (n : UInt64) : (ofNat n.toNat).uint64? = some n := by
  rw [ofNat, uint64?, Decimal.text, String.toList_ofList, Decimal.uint64?_digits]

theorem getD?_some {α : Type} (read : Json → Option α) (standard : α) (j : Json) :
    getD? read standard (some j) = read j := rfl

/-- A member of an object whose names are all different. -/
theorem member?_map_some {members : List (String × Json)} (h : (members.map (·.1)).Nodup)
    (name : String) :
    member? (members.map fun m => (some m.1, m.2)) name = some (members.lookup name) := by
  induction members with
  | nil => rfl
  | cons m ms ih =>
      obtain ⟨k, j⟩ := m
      obtain ⟨hk, hms⟩ := List.nodup_cons.1 h
      by_cases hname : k = name
      · subst hname
        have hrest : (ms.map fun m => (some m.1, m.2)).filter (fun m => m.1 = some k) = [] := by
          rw [List.filter_eq_nil_iff]
          rintro _ hm heq
          obtain ⟨m, hm', rfl⟩ := List.mem_map.1 hm
          exact hk (List.mem_map.2 ⟨m, hm', by simpa using heq⟩)
        simp [member?, hrest]
      · have hlookup : ((k, j) :: ms).lookup name = ms.lookup name := by
          rw [List.lookup_cons, beq_false_of_ne (Ne.symm hname)]
        rw [hlookup, ← ih hms]
        simp [member?, hname]

/-- A record is read from an object whose names are all different. -/
theorem record?_ofMembers {members : List (String × Json)} (h : (members.map (·.1)).Nodup)
    (names : List String) :
    (ofMembers members).record? names = some (names.map fun name => members.lookup name) := by
  have hnames : (members.map fun m => (some m.1, m.2)).all (fun m => m.1.isSome) = true := by
    simp
  rw [ofMembers, record?, if_pos hnames]
  induction names with
  | nil => rfl
  | cons name names ih => simp [member?_map_some h, ih]

/-- A member is looked for among those with the names that are asked for. -/
theorem member?_filter {names : List String} {name : String} (h : name ∈ names)
    (members : List (String × Json)) :
    member? ((members.filter fun m => m.1 ∈ names).map fun m => (some m.1, m.2)) name =
      member? (members.map fun m => (some m.1, m.2)) name := by
  have hfilter : (members.filter fun m => m.1 ∈ names).filter (fun m => m.1 = name) =
      members.filter fun m => m.1 = name := by
    rw [List.filter_filter]
    refine List.filter_congr fun m _ => ?_
    by_cases hm : m.1 = name <;> simp [hm, h]
  simp [member?, List.filter_map, Function.comp_def, hfilter]

/-- Members with other names than those of a record do not count, however many there are. -/
theorem record?_ofMembers_filter (names : List String) (members : List (String × Json)) :
    (ofMembers (members.filter fun m => m.1 ∈ names)).record? names =
      (ofMembers members).record? names := by
  have hmembers : ∀ asked : List String, (∀ name ∈ asked, name ∈ names) →
      asked.mapM (member? ((members.filter fun m => m.1 ∈ names).map fun m => (some m.1, m.2))) =
        asked.mapM (member? (members.map fun m => (some m.1, m.2))) := by
    intro asked hasked
    induction asked with
    | nil => rfl
    | cons name asked ih =>
        obtain ⟨hname, hrest⟩ := List.forall_mem_cons.1 hasked
        rw [List.mapM_cons, List.mapM_cons, member?_filter hname, ih hrest]
  simp [ofMembers, record?, hmembers names]

end ViewFilters.Json
