import Blocklist.Settings.Arguments
-- What a command line tells: step by step from nothing, by options with values and by
-- switches.
namespace Blocklist.Settings

variable {P : Given → Prop} {p next : Progress} {level : Level} {given g : Given}
  {arguments : List String} {a : Arguments}

-- What holds of nothing, and still after every option
structure Invariant (P : Given → Prop) : Prop where
  nothing : P .nothing
  put {g next : Given} {k : Key} {value : String} (hg : P g) (h : g.put k value = .ok next) : P next
  flip {g next : Given} {s : Switch} (hg : P g) (h : g.flip s = .ok next) : P next

section

variable {ε α β : Type} {x : Except ε α} {f : α → Except ε β} {b : β}

-- When one step after another went well, each did
theorem bind_eq_ok (h : x.bind f = .ok b) : ∃ a, x = .ok a ∧ f a = .ok b := by
  cases x with
  | error e => cases h
  | ok a => exact ⟨a, rfl, h⟩

end

namespace Invariant

theorem settle (hP : Invariant P) (hp : P p.given) (h : p.settle = .ok next) : P next.given := by
  unfold Progress.settle at h
  split at h
  case h_1 =>
    cases h
    exact hp
  case h_2 => cases h
  case h_3 =>
    obtain ⟨g, hput, h⟩ := bind_eq_ok h
    cases h
    exact hP.put hp hput

theorem progressFlip {s : Switch} (hP : Invariant P) (hp : P p.given) (h : p.flip s = .ok next) :
    P next.given := by
  obtain ⟨settled, hsettle, h⟩ := bind_eq_ok h
  obtain ⟨g, hflip, h⟩ := bind_eq_ok h
  cases h
  exact hP.flip (hP.settle hp hsettle) hflip

theorem progressPut {k : Key} {value : String} (hP : Invariant P) (hp : P p.given)
    (h : p.put k value = .ok next) : P next.given := by
  obtain ⟨settled, hsettle, h⟩ := bind_eq_ok h
  obtain ⟨g, hput, h⟩ := bind_eq_ok h
  cases h
  exact hP.put (hP.settle hp hsettle) hput

theorem await {k : Key} (hP : Invariant P) (hp : P p.given) (h : p.await k = .ok next) :
    P next.given := by
  obtain ⟨settled, hsettle, h⟩ := bind_eq_ok h
  have hsettled := hP.settle hp hsettle
  cases h
  exact hsettled

theorem letters {text : List Char} (hP : Invariant P) (hp : P p.given)
    (h : p.letters level text = .ok next) : P next.given := by
  induction text generalizing p with
  | nil =>
      cases h
      exact hp
  | cons c rest ih =>
      unfold Progress.letters at h
      split at h
      case h_1 => cases h
      case h_2 s hswitch =>
        obtain ⟨flipped, hflip, h⟩ := bind_eq_ok h
        exact ih (hP.progressFlip hp hflip) h
      case h_3 k hkey =>
        split at h
        case h_1 => exact hP.await hp h
        case h_2 => exact hP.progressPut hp h
        case h_3 => exact hP.progressPut hp h

theorem long {text : List Char} (hP : Invariant P) (hp : P p.given)
    (h : p.long level text = .ok next) : P next.given := by
  unfold Progress.long at h
  split at h
  split at h
  case h_1 => cases h
  case h_2 => exact hP.progressFlip hp h
  case h_3 => cases h
  case h_4 => exact hP.await hp h
  case h_5 => exact hP.progressPut hp h

theorem readArgument {argument : String} (hP : Invariant P) (hp : P p.given)
    (h : Settings.readArgument level p argument = .ok next) : P next.given := by
  unfold Settings.readArgument at h
  split at h
  case isTrue => cases h
  case isFalse =>
    split at h
    case h_1 =>
      cases h
      exact hp
    case h_2 => exact hP.long hp h
    case h_3 => exact hP.letters hp h
    case h_4 =>
      split at h
      case h_1 =>
        cases h
        exact hp
      case h_2 => cases h

theorem finish (hP : Invariant P) (hp : P p.given) (h : p.finish = .ok given) : P given := by
  obtain ⟨settled, hsettle, h⟩ := bind_eq_ok h
  unfold Given.check at h
  split at h
  case isTrue => cases h
  case isFalse =>
    cases h
    exact hP.settle hp hsettle

-- On both levels, by induction on the arguments
theorem readLevel {named : Option (Command × Given)} (hP : Invariant P) (hp : P p.given)
    (h : Settings.readLevel level p arguments = .ok (given, named)) :
    P given ∧ ∀ c inner, named = some (c, inner) → P inner := by
  induction arguments generalizing level p given named with
  | nil =>
      unfold Settings.readLevel at h
      obtain ⟨g, hfinish, h⟩ := bind_eq_ok h
      cases h
      refine ⟨hP.finish hp hfinish, ?_⟩
      rintro _ _ ⟨⟩
  | cons argument rest ih =>
      unfold Settings.readLevel at h
      extract_lets command at h
      clear_value command
      split at h
      case h_1 => cases h
      case h_2 c =>
        obtain ⟨⟨inner, _⟩, hinner, h⟩ := bind_eq_ok h
        obtain ⟨g, hfinish, h⟩ := bind_eq_ok h
        cases h
        refine ⟨hP.finish hp hfinish, ?_⟩
        rintro _ _ ⟨⟩
        exact (ih hP.nothing hinner).1
      case h_3 =>
        obtain ⟨read, hread, h⟩ := bind_eq_ok h
        exact ih (hP.readArgument hp hread) h

end Invariant

-- What a command line tells on both levels
def told (arguments : List String) : Except Stop Given := do
  let (outer, named) ← readLevel .top Progress.start arguments
  .ok (match named with
    | none => outer
    | some (_, inner) => inner.orElse outer)

theorem told_of_readArguments {environment : Option String}
    (h : readArguments environment arguments = .ok a) :
    ∃ given, told arguments = .ok given ∧ a.config = given.config ∧
      a.settings = given.settings environment := by
  obtain ⟨⟨outer, named⟩, hlevel, h⟩ := bind_eq_ok h
  cases h
  refine ⟨_, ?_, rfl, rfl⟩
  unfold told
  rw [hlevel]
  rfl

-- There is a tag wherever tags are told
def Given.Interested (g : Given) : Prop := g.interest ≠ some []

theorem readTags_ne_nil {value : String} {tags : List Nat} (h : Given.readTags value = .ok tags) :
    tags ≠ [] := by
  unfold Given.readTags at h
  cases hsplit : value.toList.splitOn ',' with
  | nil => exact absurd hsplit (List.splitOn_ne_nil _ _)
  | cons first rest =>
      rw [hsplit, List.mapM_cons] at h
      obtain ⟨tag, -, h⟩ := bind_eq_ok h
      obtain ⟨others, -, h⟩ := bind_eq_ok h
      cases h
      exact List.cons_ne_nil tag others

theorem interested_invariant : Invariant Given.Interested where
  nothing := nofun
  put {g next k value} hg h := by
    unfold Given.put at h
    cases k with
    | interest =>
        obtain ⟨tags, hread, h⟩ := bind_eq_ok h
        cases h
        intro hnone
        exact readTags_ne_nil hread (List.append_eq_nil_iff.mp (Option.some.inj hnone)).2
    | _ =>
        obtain ⟨value, -, h⟩ := bind_eq_ok h
        cases h
        exact hg
  flip {g next s} hg h := by
    cases s with
    | more | less =>
        cases h
        exact hg
    | help | version => cases h

theorem told_interested (h : told arguments = .ok given) : given.Interested := by
  obtain ⟨⟨outer, named⟩, hlevel, h⟩ := bind_eq_ok h
  obtain ⟨houter, hinner⟩ := interested_invariant.readLevel interested_invariant.nothing hlevel
  cases named with
  | none =>
      cases h
      exact houter
  | some command =>
      cases h
      obtain ⟨c, inner⟩ := command
      change inner.interest.or outer.interest ≠ some []
      cases htags : inner.interest with
      | none => exact houter
      | some tags =>
          rw [Option.some_or, ← htags]
          exact hinner c inner rfl

end Blocklist.Settings
