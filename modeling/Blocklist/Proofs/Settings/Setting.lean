import Blocklist.Settings.Document
import Blocklist.Proofs.Settings.Arguments
import Blocklist.Proofs.Settings.Verbosity
import Blocklist.Proofs.Text.Utf8
import Blocklist.Proofs.Toml.Distinct
-- The settings one by one: what a command line and a file tell of each.
namespace Blocklist.Settings

open Blocklist.Files

inductive Setting where
  | verbosity
  | dataset
  | output
  | limit
  | maxConcurrency
  | threads
  | timeout
  | deadline
  | userAgent
  | interest
  | address
  deriving DecidableEq, Repr

namespace Setting

def Value : Setting → Type
  | verbosity => Verbosity
  | dataset => Path
  | output => Path
  | limit => Nat
  | maxConcurrency => Nat
  | threads => Option Nat
  | timeout => Nat
  | deadline => Duration
  | userAgent => String
  | interest => List Nat
  | address => String

-- Whether two values count as one: paths by their steps, and other values if they are equal
def same : (k : Setting) → k.Value → k.Value → Bool
  | verbosity => fun v w : Verbosity => v == w
  | dataset => Path.same
  | output => Path.same
  | limit => fun v w : Nat => v == w
  | maxConcurrency => fun v w : Nat => v == w
  | threads => fun v w : Option Nat => v == w
  | timeout => fun v w : Nat => v == w
  | deadline => fun v w : Duration => v == w
  | userAgent => fun v w : String => v == w
  | interest => fun v w : List Nat => v == w
  | address => fun v w : String => v == w

def of (s : Settings) : (k : Setting) → k.Value
  | verbosity => s.verbosity
  | dataset => s.dataset
  | output => s.output
  | limit => s.limit
  | maxConcurrency => s.maxConcurrency
  | threads => s.threads
  | timeout => s.timeout
  | deadline => s.deadline
  | userAgent => s.userAgent
  | interest => s.interest
  | address => s.address

def set (s : Settings) : (k : Setting) → k.Value → Settings
  | verbosity, v => { s with verbosity := v }
  | dataset, v => { s with dataset := v }
  | output, v => { s with output := v }
  | limit, v => { s with limit := v }
  | maxConcurrency, v => { s with maxConcurrency := v }
  | threads, v => { s with threads := v }
  | timeout, v => { s with timeout := v }
  | deadline, v => { s with deadline := v }
  | userAgent, v => { s with userAgent := v }
  | interest, v => { s with interest := v }
  | address, v => { s with address := v }

def standard (k : Setting) : k.Value := of Settings.standard k

-- Whether a value counts as another than the standard one
def differs (k : Setting) (w : k.Value) : Bool := !k.same w k.standard

-- What a command line tells, where the environment may tell the address
def told (g : Given) (environment : Option String) : (k : Setting) → Option k.Value
  | verbosity => if g.more = 0 ∧ g.less = 0 then none else some (⟨g.more, g.less⟩ : Verbosity)
  | dataset => g.dataset
  | output => g.output
  | limit => g.limit
  | maxConcurrency => g.maxConcurrency
  | threads => g.threads.map some
  | timeout => g.timeout
  | deadline => g.deadline
  | userAgent => g.userAgent
  | interest => g.interest
  | address => g.address.or environment

-- The key in a file
def key : Setting → String
  | verbosity => "verbose"
  | dataset => "dataset"
  | output => "output"
  | limit => "limit"
  | maxConcurrency => "max_concurrency"
  | threads => "threads"
  | timeout => "timeout"
  | deadline => "deadline"
  | userAgent => "user_agent"
  | interest => "interest"
  | address => "address"

-- What the value at the key stands for
def read : (k : Setting) → Toml.Value → Except DocumentError k.Value
  | verbosity, v => verbosityOf v
  | dataset, v => textOf v
  | output, v => textOf v
  | limit, v => wordOf v
  | maxConcurrency, v => wordOf v
  | threads, v => (wordOf v).map some
  | timeout, v => wordOf v
  | deadline, v => durationOf v
  | userAgent, v => textOf v
  | interest, v => tagsOf v
  | address, v => textOf v

-- What the entries of a file tell
def inFile (entries : Toml.Entries) (k : Setting) : Option k.Value :=
  (entries.lookup k.key).bind fun v => (k.read v).toOption

end Setting

-- To go on without a chance to fail is to map
theorem bind_ok {ε α β : Type} (x : Except ε α) (f : α → β) :
    (x.bind fun a => .ok (f a)) = x.map f := by
  cases x <;> rfl

variable {s settings : Settings} {k j : Setting} {key : String} {v : Toml.Value}
  {entries : Toml.Entries}

namespace Setting

theorem of_set_self (s : Settings) (k : Setting) (w : k.Value) : of (set s k w) k = w := by
  cases k <;> rfl

theorem of_set_of_ne (h : k ≠ j) (s : Settings) (w : j.Value) : of (set s j w) k = of s k := by
  cases k <;> cases j <;> first | rfl | exact absurd rfl h

-- Each setting has a key of its own
theorem key_injective (h : k.key = j.key) : k = j := by
  cases k <;> cases j <;> first | rfl | exact absurd h (by decide)

-- The key of a setting sets it
theorem put_key (s : Settings) (k : Setting) (v : Toml.Value) :
    put s k.key v = (k.read v).map (set s k) := by
  cases k
  case threads =>
    change (wordOf v).bind _ = ((wordOf v).map some).map (set s threads)
    cases wordOf v <;> rfl
  all_goals exact bind_ok _ _

-- Other keys stand for nothing
theorem key_of_put (h : put s key v = .ok settings) : ∃ k : Setting, key = k.key := by
  unfold put at h
  split at h
  case h_1 => exact ⟨verbosity, rfl⟩
  case h_2 => exact ⟨dataset, rfl⟩
  case h_3 => exact ⟨output, rfl⟩
  case h_4 => exact ⟨limit, rfl⟩
  case h_5 => exact ⟨maxConcurrency, rfl⟩
  case h_6 => exact ⟨threads, rfl⟩
  case h_7 => exact ⟨timeout, rfl⟩
  case h_8 => exact ⟨deadline, rfl⟩
  case h_9 => exact ⟨userAgent, rfl⟩
  case h_10 => exact ⟨interest, rfl⟩
  case h_11 => exact ⟨address, rfl⟩
  case h_12 => cases h

theorem same_iff_eq (hdataset : k ≠ dataset) (houtput : k ≠ output) {v w : k.Value} :
    k.same v w = true ↔ v = w := by
  cases k with
  | verbosity => exact beq_iff_eq (α := Verbosity)
  | dataset => exact absurd rfl hdataset
  | output => exact absurd rfl houtput
  | limit => exact beq_iff_eq (α := Nat)
  | maxConcurrency => exact beq_iff_eq (α := Nat)
  | threads => exact beq_iff_eq (α := Option Nat)
  | timeout => exact beq_iff_eq (α := Nat)
  | deadline => exact beq_iff_eq (α := Duration)
  | userAgent => exact beq_iff_eq (α := String)
  | interest => exact beq_iff_eq (α := List Nat)
  | address => exact beq_iff_eq (α := String)

theorem same_equivalence (k : Setting) :
    Equivalence fun v w : k.Value => k.same v w = true := by
  by_cases hdataset : k = dataset
  · subst hdataset
    exact Path.same_equivalence
  · by_cases houtput : k = output
    · subst houtput
      exact Path.same_equivalence
    · simp only [same_iff_eq hdataset houtput]
      exact eq_equivalence

theorem of_merge (given file : Settings) (k : Setting) :
    of (Settings.merge given file) k =
      Settings.unlessStandard k.same k.standard (of given k) (of file k) := by
  cases k <;> rfl

theorem unlessStandard_self (k : Setting) (w : k.Value) :
    Settings.unlessStandard k.same k.standard w k.standard = w := by
  have hself := k.same_equivalence.refl k.standard
  simp [Settings.unlessStandard, hself]

-- Settings are told apart by their values
theorem of_injective {given file : Settings} (h : ∀ k, of given k = of file k) : given = file := by
  obtain ⟨⟩ := given
  obtain ⟨⟩ := file
  simp only [Settings.mk.injEq]
  exact ⟨h verbosity, h dataset, h output, h limit, h maxConcurrency, h threads, h timeout,
    h deadline, h userAgent, h interest, h address⟩

theorem of_settings (g : Given) (environment : Option String) (k : Setting) :
    of (g.settings environment) k = (told g environment k).getD k.standard := by
  cases k
  case verbosity =>
    unfold told
    split
    case isTrue hnone =>
      obtain ⟨hmore, hless⟩ := hnone
      change (⟨g.more, g.less⟩ : Verbosity) = ⟨0, 0⟩
      rw [hmore, hless]
    case isFalse => rfl
  case threads =>
    change g.threads.or none = (g.threads.map some).getD none
    cases g.threads <;> rfl
  all_goals rfl

-- What is told counts before what a file tells, unless either counts as the standard value. Of
-- several spellings of that the one that is told stays.
theorem unlessStandard_getD (k : Setting) (given inFile : Option k.Value) :
    Settings.unlessStandard k.same k.standard (given.getD k.standard) (inFile.getD k.standard) =
      ((given.filter k.differs).or (inFile.filter k.differs)).getD (given.getD k.standard) := by
  have hself := k.same_equivalence.refl k.standard
  have hfile : ∀ v : k.Value, k.same v k.standard = true →
      Settings.unlessStandard k.same k.standard v (inFile.getD k.standard) =
        (inFile.filter k.differs).getD v := by
    intro v hv
    cases inFile with
    | none => simp [Settings.unlessStandard, hself]
    | some w =>
        cases hw : k.same w k.standard <;>
          simp [Settings.unlessStandard, Option.filter_some, differs, hv, hw]
  cases given with
  | none => exact hfile k.standard hself
  | some v =>
      cases hv : k.same v k.standard with
      | false => simp [Settings.unlessStandard, Option.filter_some, differs, hv]
      | true => simpa [Option.filter_some, differs, hv] using hfile v hv

-- Whichever the spelling is, the value is the one that is told and differs, or else the one in
-- the file
theorem same_getD (k : Setting) (given inFile : Option k.Value) :
    k.same (((given.filter k.differs).or (inFile.filter k.differs)).getD (given.getD k.standard))
      (((given.filter k.differs).or inFile).getD k.standard) = true := by
  have hequal := k.same_equivalence
  cases hfirst : given.filter k.differs with
  | some v => exact hequal.refl v
  | none =>
      have hgiven : k.same (given.getD k.standard) k.standard = true := by
        cases given with
        | none => exact hequal.refl _
        | some v => simpa [Option.filter_some, differs] using hfirst
      cases inFile with
      | none => exact hgiven
      | some w =>
          cases hother : k.same w k.standard with
          | false =>
              simp only [Option.filter_some, differs, hother]
              exact hequal.refl w
          | true =>
              simp only [Option.filter_some, differs, hother]
              exact hequal.trans hgiven (hequal.symm hother)

-- Where only a wish, a number or a tag can tell a setting, the standard value is never told
theorem told_ne_standard {g : Given} (hg : g.Interested) (environment : Option String) :
    ∀ k ∈ [verbosity, threads, interest], told g environment k ≠ some k.standard := by
  simp only [List.forall_mem_cons, List.not_mem_nil, false_imp_iff, implies_true, and_true]
  refine ⟨?_, ?_, hg⟩
  · unfold told
    split
    case isTrue => exact nofun
    case isFalse hsome =>
      intro heq
      have hnone : (⟨g.more, g.less⟩ : Verbosity) = ⟨0, 0⟩ := Option.some.inj heq
      exact hsome ⟨congrArg Verbosity.more hnone, congrArg Verbosity.less hnone⟩
  · intro heq
    obtain ⟨n, -, heq⟩ := Option.map_eq_some_iff.mp heq
    cases heq

end Setting

-- A file without entries changes nothing
theorem merge_standard (given : Settings) : given.merge Settings.standard = given :=
  Setting.of_injective fun k => (Setting.of_merge _ _ k).trans (k.unlessStandard_self _)

-- The keys of a file are keys of settings, with values that fit
def Fits (entries : Toml.Entries) : Prop :=
  ∀ entry ∈ entries, ∃ k : Setting, ∃ w, entry.1 = k.key ∧ k.read entry.2 = .ok w

theorem fits_cons : Fits ((key, v) :: entries) ↔
    (∃ k : Setting, ∃ w, key = k.key ∧ k.read v = .ok w) ∧ Fits entries :=
  List.forall_mem_cons

theorem put_eq_ok_iff : put s key v = .ok settings ↔
    ∃ (k : Setting) (w : k.Value), key = k.key ∧ k.read v = .ok w ∧ settings = k.set s w := by
  constructor
  · intro h
    obtain ⟨k, rfl⟩ := Setting.key_of_put h
    rw [Setting.put_key] at h
    cases hread : k.read v with
    | error e =>
        rw [hread] at h
        cases h
    | ok w =>
        rw [hread] at h
        cases h
        exact ⟨k, w, rfl, hread, rfl⟩
  · rintro ⟨k, w, rfl, hread, rfl⟩
    rw [Setting.put_key, hread]
    rfl

-- The settings with the values of entries, one after the other
def putAll (s : Settings) (entries : Toml.Entries) : Except DocumentError Settings :=
  entries.foldlM (fun s (key, v) => put s key v) s

theorem putAll_cons : putAll s ((key, v) :: entries) =
    (put s key v).bind fun next => putAll next entries := by
  unfold putAll
  rw [List.foldlM_cons]
  rfl

-- Entries lead to settings when all of them fit
theorem putAll_isOk_iff : (∃ settings, putAll s entries = .ok settings) ↔ Fits entries := by
  induction entries generalizing s with
  | nil => exact ⟨fun _ => List.forall_mem_nil _, fun _ => ⟨s, rfl⟩⟩
  | cons entry rest ih =>
      obtain ⟨key, v⟩ := entry
      rw [fits_cons, putAll_cons]
      constructor
      · rintro ⟨settings, h⟩
        obtain ⟨next, hput, hrest⟩ := bind_eq_ok h
        obtain ⟨k, w, hkey, hread, -⟩ := put_eq_ok_iff.mp hput
        exact ⟨⟨k, w, hkey, hread⟩, ih.mp ⟨settings, hrest⟩⟩
      · rintro ⟨⟨k, w, hkey, hread⟩, hrest⟩
        rw [put_eq_ok_iff.mpr ⟨k, w, hkey, hread, rfl⟩]
        exact ih.mpr hrest

-- Each setting comes from its own entry, and stays without one
theorem of_putAll (hdistinct : entries.Distinct) (h : putAll s entries = .ok settings)
    (k : Setting) :
    (∀ v, (k.key, v) ∈ entries → k.read v = .ok (k.of settings)) ∧
      (k.key ∉ entries.keys → k.of settings = k.of s) := by
  induction entries generalizing s with
  | nil =>
      cases h
      exact ⟨nofun, fun _ => rfl⟩
  | cons entry rest ih =>
      obtain ⟨key, v⟩ := entry
      rw [putAll_cons] at h
      obtain ⟨next, hput, h⟩ := bind_eq_ok h
      obtain ⟨j, w, rfl, hread, rfl⟩ := put_eq_ok_iff.mp hput
      obtain ⟨hnew, hrest⟩ := List.nodup_cons.mp hdistinct
      obtain ⟨hset, hkept⟩ := ih hrest h
      by_cases hsame : k = j
      · subst hsame
        refine ⟨?_, fun hnone => absurd List.mem_cons_self hnone⟩
        intro v' hv'
        obtain heq | hlater := List.mem_cons.mp hv'
        · cases heq
          rw [hkept hnew, Setting.of_set_self, hread]
        · exact absurd (List.mem_map_of_mem hlater) hnew
      · refine ⟨?_, ?_⟩
        · intro v' hv'
          obtain heq | hlater := List.mem_cons.mp hv'
          · exact absurd (Setting.key_injective (congrArg Prod.fst heq)) hsame
          · exact hset v' hlater
        · intro hnone
          rw [hkept (List.not_mem_of_not_mem_cons hnone), Setting.of_set_of_ne hsame]

-- The order of the entries does not matter
theorem ofEntries_isOk_iff : (∃ settings, ofEntries entries = .ok settings) ↔ Fits entries := by
  refine putAll_isOk_iff.trans ?_
  unfold Fits
  simp only [List.mem_mergeSort]

theorem ofEntries_nil : ofEntries [] = .ok Settings.standard := by
  unfold ofEntries
  rw [List.mergeSort_nil]
  rfl

theorem of_ofEntries (hdistinct : entries.Distinct) (h : ofEntries entries = .ok settings)
    (k : Setting) : k.of settings = (k.inFile entries).getD k.standard := by
  have hsorted := entries.mergeSort_perm fun a b => a.1 ≤ b.1
  have hkeys := hsorted.map Prod.fst
  obtain ⟨hset, hkept⟩ := of_putAll (hkeys.nodup_iff.mpr hdistinct) h k
  unfold Setting.inFile
  cases hlookup : entries.lookup k.key with
  | none =>
      refine hkept fun hmem => ?_
      obtain ⟨entry, hentry, hkey⟩ := List.mem_map.mp (hkeys.mem_iff.mp hmem)
      have hother := List.lookup_eq_none_iff.mp hlookup entry hentry
      exact absurd hkey.symm (bne_iff_ne.mp hother)
  | some v =>
      obtain ⟨before, behind, rfl, -⟩ := List.lookup_eq_some_iff.mp hlookup
      have hread := hset v (hsorted.mem_iff.mpr List.mem_append_cons_self)
      rw [Option.bind_some, hread]
      rfl

theorem of_toOption_eq_some {ε α : Type} {x : Except ε α} {a : α} (h : x.toOption = some a) :
    x = .ok a := by
  cases x <;> cases h
  rfl

-- A file tells a verbosity by the name of a level
theorem exists_level_of_verbosityOf {w : Verbosity} (h : verbosityOf v = .ok w) :
    ∃ level, w = Verbosity.ofLevel level := by
  obtain ⟨name, -, h⟩ := bind_eq_ok h
  split at h
  case h_1 verbosity hname =>
    cases h
    exact Verbosity.exists_level_of_ofName hname
  case h_2 => cases h

theorem exists_level_of_ofEntries (hdistinct : entries.Distinct)
    (h : ofEntries entries = .ok settings) :
    ∃ level, settings.verbosity = Verbosity.ofLevel level := by
  have hof : settings.verbosity = (Setting.verbosity.inFile entries).getD Verbosity.standard :=
    of_ofEntries hdistinct h .verbosity
  rw [hof]
  cases htold : Setting.verbosity.inFile entries with
  | none => exact ⟨.info, rfl⟩
  | some w =>
      obtain ⟨v, -, hread⟩ := Option.bind_eq_some_iff.mp htold
      exact exists_level_of_verbosityOf (of_toOption_eq_some hread)

-- The entries of the document in what opening a path gave
def entriesIn? : Except FileError Opened → Option Toml.Entries
  | .ok (.bytes bytes) => (Text.decode? bytes).bind fun text => Toml.read? (String.ofList text)
  | _ => none

theorem entriesIn?_encode (text : String) :
    entriesIn? (.ok (.bytes (Text.encode text.toList))) = Toml.read? text := by
  rw [entriesIn?, Text.decode?_encode, Option.bind_some, String.ofList_toList]

theorem ofOpened_of_entries {opened : Except FileError Opened}
    (h : entriesIn? opened = some entries) :
    ofOpened opened = ofEntries entries ∧ entries.Distinct := by
  unfold entriesIn? at h
  split at h
  case h_1 bytes =>
    obtain ⟨text, hdecode, hread⟩ := Option.bind_eq_some_iff.mp h
    refine ⟨?_, Toml.distinct_of_read? hread⟩
    simp only [ofOpened, ofBytes, hdecode, hread]
  case h_2 => cases h

theorem entriesIn?_of_ofOpened {opened : Except FileError Opened}
    (h : ofOpened opened = .ok settings) :
    ∃ entries, entriesIn? opened = some entries ∧ ofEntries entries = .ok settings := by
  unfold ofOpened at h
  split at h
  case h_2 => cases h
  case h_1 bytes =>
    unfold ofBytes at h
    split at h
    case h_1 => cases h
    case h_2 text hdecode =>
      split at h
      case h_1 => cases h
      case h_2 entries hread =>
        refine ⟨entries, ?_, h⟩
        rw [entriesIn?, hdecode]
        exact hread

end Blocklist.Settings
