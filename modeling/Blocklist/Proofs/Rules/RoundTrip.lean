import Blocklist.Proofs.Json.RoundTrip
import Blocklist.Proofs.Text.Utf8
import Blocklist.Rules.Json
-- Rules that have been written as JSON are read back as they were.
namespace Blocklist.Rule

open Json

section

variable {α β : Type} {layout : Layout} {depth fuel : Nat} {part : String → Option (α → Read α)}
  {got next last : α} {name : String} {value rest text : List Char} {first : Bool}
  {fields : List (String × List Char)}

theorem nextField_end (layout : Layout) (depth : Nat) (first : Bool) (rest : List Char) :
    nextField first (lineBreak layout depth ++ '\x7d' :: rest) = .ok (false, '\x7d' :: rest) := by
  have hend : skipBlanks ('\x7d' :: rest) = '\x7d' :: rest := skipBlanks_cons (by decide)
  simp [nextField, skipBlanks_lineBreak, hend]

theorem nextField_first (layout : Layout) (depth : Nat) (name : String) (rest : List Char) :
    nextField true (lineBreak layout depth ++ (Json.text name ++ rest)) =
      .ok (true, Json.text name ++ rest) := by
  simp [nextField, skipBlanks_lineBreak, Json.text, skipBlanks_quote]

theorem nextField_comma (layout : Layout) (depth : Nat) (name : String) (rest : List Char) :
    nextField false (',' :: (lineBreak layout depth ++ (Json.text name ++ rest))) =
      .ok (true, Json.text name ++ rest) := by
  simp [nextField, skipBlanks_comma, skipBlanks_lineBreak, Json.text, skipBlanks_quote]

-- What a field does to the record that is being filled: it takes the text `value` after
-- the colon, and makes `next` of `got`
def Puts (fill : α → Read α) (got : α) (value : List Char) (next : α) : Prop :=
  ∀ after rest, skipBlanks after = value ++ rest → Follows rest →
    fill got (':' :: after) = .ok (next, rest)

theorem puts_once {fill : α → Read α} {read : Read β} {b : β} {put : β → α}
    (hfill : fill got = fillOnce none read put) (h : Reads read value b) :
    Puts fill got value (put b) := by
  intro after rest hafter hrest
  have hcolon : expect ':' (':' :: after) = .ok ((), after) :=
    expect_of_skipBlanks (skipBlanks_cons (by decide))
  simp [hfill, fillOnce, hcolon, h after rest hafter hrest, bind, Except.bind]

-- The fields, one after the other, make `last` of `got`
inductive Fills (part : String → Option (α → Read α)) : α → List (String × List Char) → α → Prop
  | done (got : α) : Fills part got [] got
  | field {got next last : α} {name : String} {value : List Char}
      {fields : List (String × List Char)} (fill : α → Read α) (hpart : part name = some fill)
      (hsolid : Solid value) (hputs : Puts fill got value next) (more : Fills part next fields last) :
      Fills part got ((name, value) :: fields) last

theorem fieldsWith_field (layout : Layout) (fill : α → Read α) (hpart : part name = some fill)
    (hsolid : Solid value) (hputs : Puts fill got value next) (hrest : Follows rest)
    (htext : nextField first text = .ok (true, field layout name value ++ rest)) :
    fieldsWith part (fuel + 1) first got text = fieldsWith part fuel false next rest := by
  obtain ⟨after, hfield, hafter⟩ : ∃ after, field layout name value ++ rest =
      Json.text name ++ ':' :: after ∧ skipBlanks after = value ++ rest := by
    cases layout with
    | compact => exact ⟨value ++ rest, by simp [field], hsolid.skipBlanks rest⟩
    | indented =>
        refine ⟨' ' :: (value ++ rest), by simp [field], ?_⟩
        exact hsolid.skipBlanks rest
  have hname : readText (field layout name value ++ rest) = .ok (name, ':' :: after) := by
    refine readText_text ?_
    rw [hfield]
    exact (solid_text name).skipBlanks _
  simp [fieldsWith, htext, hname, hpart, hputs after rest hafter hrest, bind, Except.bind]

theorem fieldsWith_fills (layout : Layout) (depth : Nat) (h : Fills part got fields last)
    (rest : List Char) (hfuel : fields.length < fuel) :
    fieldsWith part fuel false got
        (itemsAfter layout depth '\x7d' (fields.map fun f => field layout f.1 f.2) rest) =
      .ok (last, '\x7d' :: rest) := by
  induction h generalizing fuel with
  | done got =>
      obtain ⟨fuel, rfl⟩ := Nat.exists_eq_succ_of_ne_zero (Nat.ne_of_gt hfuel)
      simp [fieldsWith, itemsAfter, nextField_end layout depth false rest, bind, Except.bind]
  | @field got next last name value fields fill hpart hsolid hputs more ih =>
      obtain ⟨fuel, rfl⟩ := Nat.exists_eq_succ_of_ne_zero (Nat.ne_of_gt (Nat.zero_lt_of_lt hfuel))
      have hfollows := follows_itemsAfter layout depth (.inr rfl)
        (fields.map fun f => field layout f.1 f.2) rest
      rw [List.map_cons, itemsAfter_cons]
      rw [fieldsWith_field layout fill hpart hsolid hputs hfollows]
      · exact ih (Nat.lt_of_succ_lt_succ hfuel)
      · simpa [field] using nextField_comma layout (depth + 1) name _

theorem object_cons (layout : Layout) (depth : Nat) (f : String × List Char)
    (fields : List (String × List Char)) (rest : List Char) :
    object layout depth (f :: fields) ++ rest =
      '\x7b' :: (lineBreak layout (depth + 1) ++ (field layout f.1 f.2 ++
        itemsAfter layout depth '\x7d' (fields.map fun f => field layout f.1 f.2) rest)) := by
  rw [object, List.map_cons, bracketed_cons]

-- An object is read if each of its fields can be put and nothing is missing then
theorem reads_object (layout : Layout) (depth : Nat) (last : α) {f : String × List Char}
    {complete : α → Option β} {ofItems : Read β} {b : β}
    (h : Fills part got (f :: fields) last) (hcomplete : complete last = some b) :
    Reads (readRecord got part complete ofItems) (object layout depth (f :: fields)) b := by
  intro text rest htext _
  cases h with
  | @field _ next _ name value _ fill hpart hsolid hputs more =>
      have hfollows := follows_itemsAfter layout depth (.inr rfl)
        (fields.map fun f => field layout f.1 f.2) rest
      have hopen := htext.trans (object_cons layout depth (name, value) fields rest)
      generalize htail : lineBreak layout (depth + 1) ++ (field layout name value ++
        itemsAfter layout depth '\x7d' (fields.map fun f => field layout f.1 f.2) rest) = tail
        at hopen
      have hfuel : fields.length < tail.length := by
        have hless := length_lt_itemsAfter layout depth '\x7d'
          (fields.map fun f => field layout f.1 f.2) rest
        rw [← htail]
        simp only [List.length_map, List.length_append] at hless ⊢
        omega
      have hfirst : nextField true tail = .ok (true, field layout name value ++
          itemsAfter layout depth '\x7d' (fields.map fun f => field layout f.1 f.2) rest) := by
        rw [← htail]
        simpa [field] using nextField_first layout (depth + 1) name _
      have hclose : expect '\x7d' ('\x7d' :: rest) = .ok ((), rest) :=
        expect_of_skipBlanks (skipBlanks_cons (by decide))
      have hfields : fieldsWith part (tail.length + 1) true got tail = .ok (last, '\x7d' :: rest) := by
        rw [fieldsWith_field layout fill hpart hsolid hputs hfollows hfirst]
        exact fieldsWith_fills layout depth more rest hfuel
      simp [readRecord, hopen, hfields, hcomplete, hclose, bind, Except.bind]

theorem solid_object (layout : Layout) (depth : Nat) (fields : List (String × List Char)) :
    Solid (object layout depth fields) :=
  solid_bracketed (by decide) (by decide) _

end

section

variable (layout : Layout) (depth : Nat)

theorem reads_action (a : Action) : Reads readAction (Action.write layout depth a) a := by
  refine reads_object layout depth (some a.kind) ?_ rfl
  exact .field _ rfl (solid_text _) (puts_once rfl (reads_text _)) (.done _)

theorem reads_condition (c : Condition) :
    Reads readCondition (Condition.write layout depth c) c := by
  have htypes := reads_array layout (depth + 1) c.resourceTypes (fun t _ => reads_text t)
    fun t _ => solid_text t
  refine reads_object layout depth (some c.urlFilter, some c.resourceTypes) ?_ rfl
  exact .field _ rfl (solid_text _) (puts_once rfl (reads_text _))
    (.field _ rfl (solid_array _ _ _) (puts_once rfl htypes) (.done _))

theorem reads_rule (r : Rule) : Reads Rule.read (write layout depth r) r := by
  refine reads_object layout depth
    ⟨some r.id, some r.priority, some r.action, some r.condition⟩ ?_ rfl
  exact .field _ rfl (solid_number _) (puts_once rfl (reads_word32 _))
    (.field _ rfl (solid_number _) (puts_once rfl (reads_word32 _))
      (.field _ rfl (solid_object _ _ _) (puts_once rfl (reads_action _ _ _))
        (.field _ rfl (solid_object _ _ _) (puts_once rfl (reads_condition _ _ _)) (.done _))))

theorem readAll_writeAll (rules : List Rule) : readAll (writeAll layout rules) = .ok rules := by
  have hreads := reads_array layout 0 rules (fun r _ => reads_rule layout 1 r)
    fun r _ => solid_object layout 1 _
  have hsolid := solid_array layout 0 (rules.map (write layout 1))
  have hread := hreads _ [] (hsolid.skipBlanks []) nofun
  rw [List.append_nil] at hread
  simp [readAll, writeAll, hread, skipBlanks, bind, Except.bind]

-- Rules come back from their text and from the bytes of their text. So no two lists of
-- rules are written the same, not even in different layouts.
theorem rules_come_back (rules : List Rule) :
    readAll (writeAll layout rules) = .ok rules ∧
      (Text.decode? (Text.encode (writeAll layout rules).toList)).map
          (fun text => readAll (String.ofList text)) = some (.ok rules) ∧
      ∀ other rules', writeAll other rules' = writeAll layout rules → rules' = rules := by
  refine ⟨readAll_writeAll layout rules, ?_, ?_⟩
  · rw [Text.decode?_encode, Option.map_some, String.ofList_toList, readAll_writeAll]
  · intro other rules' hsame
    have hread := readAll_writeAll other rules'
    rw [hsame, readAll_writeAll layout rules] at hread
    exact (Except.ok.inj hread).symm

example : writeAll .compact [⟨7, 1, ⟨"block"⟩, ⟨"a\"\\\x01😀", []⟩⟩] =
    "[\x7b\"id\":7,\"priority\":1,\"action\":\x7b\"type\":\"block\"\x7d," ++
      "\"condition\":\x7b\"urlFilter\":\"a\\\"\\\\\\u0001😀\",\"resourceTypes\":[]\x7d\x7d]" := by
  decide

end

end Blocklist.Rule
