/-
FluidScss/Proofs/JsonRoundTrip.lean

Reading back a JSON text that was written.  `Json.reread` is the value that a
value is read as: the same, but for numbers that are not whole, which are told
by their shortest decimals.

A value begins where a value may come or the first item of an array (`Begins`),
and from there its text leads to the progress at which it is complete
(`ReadsBack`), whatever stands behind it that does not go on with a number.
Items and members follow one another to the bracket that closes them
(`passes_items`, `passes_members`), each on a line of its own; the key of a
member must not have come before, or it would not be a new one.

So a readable value is read again (`Json.read?_write_reread`), and as it was
written if its numbers are whole (`Json.read?_write`).  What is written holds no
carriage return either (`Json.unified_writeAt`), so a file of it reads as that
text.
-/
import FluidScss.Proofs.JsonNumber
import FluidScss.Proofs.JsonReading

namespace FluidScss

open JsonLexeme

/-! ### The value read again -/

namespace Json

mutual

/-- The value that a value reads as where it is written. -/
def reread : Json → Json
  | .num x => .num x.reread
  | .arr items => .arr (rereadItems items)
  | .obj members => .obj (rereadMembers members)
  | .null => .null
  | .bool b => .bool b
  | .int n => .int n
  | .str text => .str text

/-- The items that the items of an array read as. -/
def rereadItems : List Json → List Json
  | [] => []
  | item :: items => item.reread :: rereadItems items

/-- The members that the members of an object read as. -/
def rereadMembers : List (Text × Json) → List (Text × Json)
  | [] => []
  | (key, value) :: members => (key, value.reread) :: rereadMembers members

end

theorem rereadItems_eq_map (items : List Json) : rereadItems items = items.map reread := by
  induction items with
  | nil => rfl
  | cons item items ih => rw [rereadItems, ih, List.map_cons]

theorem rereadMembers_eq_map (members : List (Text × Json)) :
    rereadMembers members = members.map fun m => (m.1, m.2.reread) := by
  induction members with
  | nil => rfl
  | cons m members ih => rw [rereadMembers, ih, List.map_cons]

theorem member?_rereadMembers (members : List (Text × Json)) (key : Text) :
    member? (rereadMembers members) key = (member? members key).map reread := by
  rw [member?, member?, rereadMembers_eq_map]
  induction members with
  | nil => rfl
  | cons m members ih =>
    rw [List.map_cons, List.lookup_cons, List.lookup_cons]
    split
    · rfl
    · exact ih

/-- Whole numbers are read as they were written. -/
theorem reread_of_whole {v : Json} (hw : v.Whole) : v.reread = v := by
  induction hw with
  | null | bool | int | str => rfl
  | @arr items whole ih =>
    rw [reread, rereadItems_eq_map, List.map_congr_left ih, List.map_id']
  | @obj members whole ih =>
    rw [reread, rereadMembers_eq_map, List.map_congr_left fun m hm => by rw [ih m hm],
      List.map_id']

end Json

/-! ### Texts that lead on -/

namespace JsonReader

/-- A text leads from one progress to another, whatever follows it. -/
def Passes (p : Progress) (text : Text) (p' : Progress) : Prop :=
  ∀ rest, steps p (all (text ++ rest)) = steps p' (all rest)

/-- A text leads from one progress to another, unless what follows goes on with
its last number. -/
def Reads (p : Progress) (text : Text) (p' : Progress) : Prop :=
  ∀ rest, Ends rest → steps p (all (text ++ rest)) = steps p' (all rest)

variable {p p' p'' : Progress} {text more : Text} {c : Char} {l : JsonLexeme} {frames : List Frame}
variable {s : Charset} {level : Nat} {items : List Json} {members : List (Text × Json)}

theorem Passes.reads (h : Passes p text p') : Reads p text p' := fun rest _ => h rest

theorem Passes.append (h : Passes p text p') (h' : Passes p' more p'') :
    Passes p (text ++ more) p'' := by
  intro rest
  rw [List.append_assoc, h, h']

theorem Passes.append_reads (h : Passes p text p') (h' : Reads p' more p'') :
    Reads p (text ++ more) p'' := by
  intro rest hr
  rw [List.append_assoc, h, h' rest hr]

theorem Reads.append_passes (h : Reads p text p') (h' : Passes p' (c :: more) p'')
    (hc : Ends [c]) : Passes p (text ++ c :: more) p'' := by
  intro rest
  have hends : Ends (c :: more ++ rest) := hc
  rw [List.append_assoc, h _ hends, h']

theorem ends_newline : Ends ['\n'] := by
  rintro c ⟨⟩
  decide

theorem ends_comma : Ends [','] := by
  rintro c ⟨⟩
  decide

theorem ends_colon : Ends [':'] := by
  rintro c ⟨⟩
  decide

theorem passes_lineStart (p : Progress) (level : Nat) : Passes p (lineStart level) p := by
  intro rest
  rw [all_lineStart]

/-- One lexeme is one step. -/
theorem reads_of_lexes (h : Lexes text l) (hstep : ∀ here, step p here l = .ok p') :
    Reads p text p' := by
  intro rest hr
  rw [h rest hr, steps, hstep]

/-- A character that is a lexeme of its own is one step, whatever follows. -/
theorem passes_of_front (hc : isJsonBlank c = false) (h : ∀ rest, front c rest = (l, rest))
    (hstep : ∀ here, step p here l = .ok p') : Passes p [c] p' := by
  intro rest
  rw [List.singleton_append, all_cons hc, h, steps, hstep]

theorem passes_comma (items : List Json) (frames : List Frame) :
    Passes ⟨.array items :: frames, .more⟩ "," ⟨.array items :: frames, .value⟩ :=
  passes_of_front rfl (fun _ => rfl) fun _ => rfl

theorem passes_closeArray (items : List Json) (frames : List Frame) :
    Passes ⟨.array items :: frames, .more⟩ "]" (complete frames (.arr items.reverse)) :=
  passes_of_front rfl (fun _ => rfl) fun _ => rfl

theorem passes_comma_object (members : List (Text × Json)) (key : Text) (frames : List Frame) :
    Passes ⟨.object members key :: frames, .more⟩ "," ⟨frames, .name members⟩ :=
  passes_of_front rfl (fun _ => rfl) fun _ => rfl

theorem passes_closeObject (members : List (Text × Json)) (key : Text) (frames : List Frame) :
    Passes ⟨.object members key :: frames, .more⟩ "\x7d" (complete frames (.obj members)) :=
  passes_of_front rfl (fun _ => rfl) fun _ => rfl

/-- Behind its name stands a member's value. -/
theorem passes_colon (frames : List Frame) : Passes ⟨frames, .colon⟩ ": " ⟨frames, .value⟩ := by
  have hcolon : Passes ⟨frames, .colon⟩ ":" ⟨frames, .value⟩ :=
    passes_of_front rfl (fun _ => rfl) fun _ => rfl
  have hblank : Passes ⟨frames, .value⟩ " " ⟨frames, .value⟩ := by
    intro rest
    show steps _ (all (' ' :: rest)) = _
    rw [all_blank rfl]
  exact hcolon.append hblank

/-! ### Values -/

/-- Where a value may begin. -/
def Begins (frames : List Frame) (p : Progress) : Prop :=
  ∀ here l, l ≠ .closeArray → step p here l = beginValue frames here l

theorem begins_value (frames : List Frame) : Begins frames ⟨frames, .value⟩ := fun _ _ _ => rfl

/-- The first item may come where the end of the array may come, too. -/
theorem begins_firstItem (items : List Json) (frames : List Frame) :
    Begins (.array items :: frames) ⟨.array items :: frames, .firstItem⟩ := by
  intro here l hl
  cases l with
  | closeArray => exact absurd rfl hl
  | _ => rfl

/-- A value is read again, wherever it stands. -/
def ReadsBack (s : Charset) (v : Json) : Prop :=
  ∀ level frames p, Begins frames p → Reads p (v.writeAt s level) (complete frames v.reread)

theorem writeItems_eq_map (s : Charset) (level : Nat) (items : List Json) :
    Json.writeItems s level items = items.map (Json.writeAt s level) := by
  induction items with
  | nil => rfl
  | cons item items ih => rw [Json.writeItems, ih, List.map_cons]

/-- A member, as it is written. -/
def memberText (s : Charset) (level : Nat) (m : Text × Json) : Text :=
  s.writeText m.1 ++ ": " ++ m.2.writeAt s level

theorem writeMembers_eq_map (s : Charset) (level : Nat) (members : List (Text × Json)) :
    Json.writeMembers s level members = members.map (memberText s level) := by
  induction members with
  | nil => rfl
  | cons m members ih =>
    rw [Json.writeMembers, ih, List.map_cons]
    rfl

/-- Items are read one after the other, to the closing bracket. -/
theorem passes_items {v : Json} {read : List Json} (h : ∀ u ∈ v :: items, ReadsBack s u)
    (hp : Begins (.array read :: frames) p) (level : Nat) :
    Passes p
      (Text.join ("," ++ lineStart (level + 1)) ((v :: items).map (Json.writeAt s (level + 1)))
        ++ (lineStart level ++ "]"))
      (complete frames (.arr (read.reverse ++ (v :: items).map Json.reread))) := by
  induction items generalizing v read p with
  | nil =>
    -- the break in front of the bracket ends the item, which may be a number
    have hclose := passes_closeArray (v.reread :: read) frames
    rw [List.reverse_cons] at hclose
    rw [List.map_singleton, List.map_singleton, Text.join_singleton]
    exact (h v (List.mem_singleton_self v) _ _ _ hp).append_passes
      ((passes_lineStart _ level).append hclose) ends_newline
  | cons u items ih =>
    obtain ⟨hv, hrest⟩ := List.forall_mem_cons.mp h
    -- items are kept in reverse while the array is open
    have hnext := ih hrest (begins_value (.array (v.reread :: read) :: frames))
    rw [List.reverse_cons, List.append_assoc, List.singleton_append, ← List.map_cons] at hnext
    rw [List.map_cons, List.map_cons, Text.join_cons_cons, List.append_assoc, List.append_assoc]
    exact (hv _ _ _ hp).append_passes
      (((passes_comma _ _).append (passes_lineStart _ _)).append hnext) ends_comma

/-- A member is read to the end of its value. -/
theorem reads_member {m : Text × Json} {read : List (Text × Json)} (level : Nat)
    (h : ReadsBack s m.2) (hkey : m.1 ∉ read.map Prod.fst)
    (hname : ∀ here key, step p here (.string key) = .ok ⟨.object read key :: frames, .colon⟩) :
    Reads p (memberText s level m)
      ⟨.object (read ++ [(m.1, m.2.reread)]) m.1 :: frames, .more⟩ := by
  have hkeyed := (reads_of_lexes (lexes_writeText s m.1) fun here => hname here m.1).append_passes
    (passes_colon _) ends_colon
  have hvalue := hkeyed.append_reads (h level _ _ (begins_value _))
  -- a new key is set behind the others
  rw [complete, Json.setMember_of_not_mem hkey] at hvalue
  exact hvalue

theorem key_not_mem {m : Text × Json} {read : List (Text × Json)}
    (hkeys : (read.map Prod.fst ++ (m :: members).map Prod.fst).Nodup) :
    m.1 ∉ read.map Prod.fst := by
  rw [List.map_cons, List.nodup_append] at hkeys
  exact fun hm => hkeys.2.2 _ hm _ (List.mem_cons_self ..) rfl

/-- Members are read one after the other, to the closing brace. -/
theorem passes_members {m : Text × Json} (read : List (Text × Json))
    (h : ∀ n ∈ m :: members, ReadsBack s n.2)
    (hkeys : (read.map Prod.fst ++ (m :: members).map Prod.fst).Nodup)
    (hname : ∀ here key, step p here (.string key) = .ok ⟨.object read key :: frames, .colon⟩)
    (level : Nat) :
    Passes p
      (Text.join ("," ++ lineStart (level + 1)) ((m :: members).map (memberText s (level + 1)))
        ++ (lineStart level ++ "\x7d"))
      (complete frames (.obj (read ++ Json.rereadMembers (m :: members)))) := by
  induction members generalizing m read p with
  | nil =>
    have hmember := reads_member (level + 1) (h m (List.mem_singleton_self m))
      (key_not_mem hkeys) hname
    rw [List.map_singleton, Text.join_singleton]
    exact hmember.append_passes
      ((passes_lineStart _ level).append (passes_closeObject _ _ _)) ends_newline
  | cons n members ih =>
    obtain ⟨hm, hrest⟩ := List.forall_mem_cons.mp h
    have hmember := reads_member (level + 1) hm (key_not_mem hkeys) hname
    have hsplit : read ++ Json.rereadMembers (m :: n :: members)
        = (read ++ [(m.1, m.2.reread)]) ++ Json.rereadMembers (n :: members) :=
      List.append_cons read _ _
    have hkeys' : ((read ++ [(m.1, m.2.reread)]).map Prod.fst
        ++ (n :: members).map Prod.fst).Nodup := by
      rw [List.map_append, List.append_assoc]
      exact hkeys
    have hnext := ih (p := ⟨frames, .name (read ++ [(m.1, m.2.reread)])⟩) _ hrest hkeys'
      fun _ _ => rfl
    rw [hsplit, List.map_cons, List.map_cons, Text.join_cons_cons, List.append_assoc,
      List.append_assoc]
    exact hmember.append_passes
      (((passes_comma_object _ _ _).append (passes_lineStart _ _)).append hnext) ends_comma

/-- Every readable value is read again. -/
theorem readsBack {v : Json} (hv : v.Readable) : ReadsBack s v := by
  induction hv with
  | null => exact fun _ _ _ hp => reads_of_lexes lexes_null fun here => hp here _ nofun
  | bool b => exact fun _ _ _ hp => reads_of_lexes (lexes_bool b) fun here => hp here _ nofun
  | int short =>
    exact fun _ _ _ hp => reads_of_lexes (lexes_ofInt short) fun here => hp here _ nofun
  | num fits =>
    exact fun _ _ _ hp =>
      reads_of_lexes (Binary64.lexes_shown fits) fun here => hp here _ nofun
  | str text =>
    exact fun _ _ _ hp => reads_of_lexes (lexes_writeText s text) fun here => hp here _ nofun
  | @arr items readable ih =>
    intro level frames p hp
    have hopen : Passes p "[" ⟨.array [] :: frames, .firstItem⟩ :=
      passes_of_front rfl (fun _ => rfl) fun here => hp here _ nofun
    rw [Json.writeAt, writeItems_eq_map, bracketed, Json.reread, Json.rereadItems_eq_map]
    rcases items with - | ⟨v, items⟩
    · have hclose : Passes ⟨.array [] :: frames, .firstItem⟩ "]" (complete frames (.arr [])) :=
        passes_of_front rfl (fun _ => rfl) fun _ => rfl
      exact (hopen.append hclose).reads
    · rw [if_neg (by simp), List.append_assoc, List.append_assoc]
      have hitems := passes_items (s := s) ih (begins_firstItem [] frames) level
      exact ((hopen.append (passes_lineStart _ _)).append hitems).reads
  | @obj members keys readable ih =>
    intro level frames p hp
    have hopen : Passes p "\x7b" ⟨frames, .firstName⟩ :=
      passes_of_front rfl (fun _ => rfl) fun here => hp here _ nofun
    rw [Json.writeAt, writeMembers_eq_map, bracketed, Json.reread]
    rcases members with - | ⟨m, members⟩
    · have hclose : Passes ⟨frames, .firstName⟩ "\x7d" (complete frames (.obj [])) :=
        passes_of_front rfl (fun _ => rfl) fun _ => rfl
      exact (hopen.append hclose).reads
    · rw [if_neg (by simp), List.append_assoc, List.append_assoc]
      have hname : ∀ here key, step ⟨frames, .firstName⟩ here (.string key)
          = .ok ⟨.object [] key :: frames, .colon⟩ := fun _ _ => rfl
      have hmembers := passes_members (s := s) [] ih keys hname level
      exact ((hopen.append (passes_lineStart _ _)).append hmembers).reads

end JsonReader

/-! ### Carriage returns -/

section Unified

open Text

theorem unified_unitEscape {unit : Nat} (hu : unit < 0x10000) : Unified (unitEscape unit) := by
  have hdigit : ∀ d < 16, Nat.digitChar d ≠ '\r' := by decide
  rw [unitEscape, hexDigits_succ (by decide), hexDigits_succ (by decide),
    hexDigits_succ (by decide), hexDigits_one (by omega)]
  simp only [unified_append, unified_cons, unified_nil, and_true]
  exact ⟨by decide, ⟨⟨hdigit _ (by omega), hdigit _ (by omega)⟩, hdigit _ (by omega)⟩,
    hdigit _ (by omega)⟩

theorem unified_writeChar (s : Charset) (c : Char) : Unified (s.writeChar c) := by
  unfold Charset.writeChar
  split
  -- the short escapes
  iterate 7
    · decide
  · rename_i hr _ _ _
    split
    · exact unified_cons.mpr ⟨hr, unified_nil⟩
    · rw [charEscape]
      have hlt := toNat_scalar c
      split
      · exact unified_unitEscape ‹_›
      · exact unified_append.mpr ⟨unified_unitEscape (by omega), unified_unitEscape (by omega)⟩

theorem unified_writeText (s : Charset) (text : Text) : Unified (s.writeText text) := by
  refine unified_append.mpr ⟨unified_append.mpr ⟨by decide, fun hm => ?_⟩, by decide⟩
  obtain ⟨c, -, hc⟩ := List.mem_flatMap.mp hm
  exact unified_writeChar s c hc

theorem unified_ofInt (n : Int) : Unified (Text.ofInt n) := by
  have hdigits : Unified (Text.ofNat n.natAbs) := fun hm =>
    absurd (Nat.isDigit_of_mem_toDigits (by decide) (by decide) hm) (by decide)
  rw [Text.ofInt]
  split
  · exact unified_cons.mpr ⟨by decide, hdigits⟩
  · exact hdigits

theorem unified_lineStart (level : Nat) : Unified (lineStart level) := by
  refine unified_cons.mpr ⟨by decide, fun hm => ?_⟩
  exact absurd (List.eq_of_mem_replicate hm) (by decide)

theorem unified_bracketed {opening closing : Text} {entries : List Text} (ho : Unified opening)
    (hc : Unified closing) (level : Nat) (he : ∀ entry ∈ entries, Unified entry) :
    Unified (bracketed opening closing level entries) := by
  have hstart := unified_lineStart (level + 1)
  rw [bracketed]
  split
  · exact unified_append.mpr ⟨ho, hc⟩
  · simp only [unified_append]
    exact ⟨⟨⟨⟨ho, hstart⟩, .join (unified_append.mpr ⟨by decide, hstart⟩) he⟩,
      unified_lineStart level⟩, hc⟩

/-- What is written holds no carriage return. -/
theorem Json.unified_writeAt {v : Json} (hv : v.Readable) (s : Charset) (level : Nat) :
    Unified (v.writeAt s level) := by
  induction hv generalizing level with
  | null => exact show Unified "null" by decide
  | bool b =>
    show Unified (if b then "true" else "false")
    cases b <;> decide
  | int => exact unified_ofInt _
  | num fits => exact Binary64.unified_shown fits
  | str text => exact unified_writeText s text
  | arr readable ih =>
    rw [Json.writeAt, JsonReader.writeItems_eq_map]
    refine unified_bracketed (by decide) (by decide) level fun entry hm => ?_
    obtain ⟨v, hv, rfl⟩ := List.mem_map.mp hm
    exact ih v hv (level + 1)
  | obj keys readable ih =>
    rw [Json.writeAt, JsonReader.writeMembers_eq_map]
    refine unified_bracketed (by decide) (by decide) level fun entry hm => ?_
    obtain ⟨m, hmem, rfl⟩ := List.mem_map.mp hm
    exact unified_append.mpr ⟨unified_append.mpr ⟨unified_writeText s m.1, by decide⟩,
      ih m hmem (level + 1)⟩

end Unified

/-! ### The round trip -/

/-- **What is written is read again**, as a text of its own or as a line. -/
theorem Json.read?_write_reread {v : Json} (hv : v.Readable) (s : Charset) {rest : Text}
    (hrest : rest = [] ∨ rest = "\n") : Json.read? (v.write s ++ rest) = .ok v.reread := by
  have hends : Ends rest := by
    rcases hrest with rfl | rfl
    · exact nofun
    · exact JsonReader.ends_newline
  have hnone : all rest = [] := by
    rcases hrest with rfl | rfl
    · rw [all]
    · exact (all_blank rfl []).trans (by rw [all])
  have hsteps : JsonReader.steps {} (all (v.write s ++ rest)) = .ok v.reread := by
    rw [Json.write, JsonReader.readsBack hv 0 [] {} (JsonReader.begins_value []) rest hends, hnone]
    rfl
  -- no value begins with a byte order mark
  unfold Json.read?
  split
  · rename_i text hmark
    rw [hmark, all_cons rfl, JsonReader.steps] at hsteps
    cases hsteps
  · exact hsteps

/-- **Reading gives back what was written**, if all numbers are whole. -/
theorem Json.read?_write {v : Json} (hv : v.Readable) (hw : v.Whole) (s : Charset) {rest : Text}
    (hrest : rest = [] ∨ rest = "\n") : Json.read? (v.write s ++ rest) = .ok v := by
  rw [Json.read?_write_reread hv s hrest, Json.reread_of_whole hw]

end FluidScss
