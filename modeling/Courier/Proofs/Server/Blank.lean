import Courier.Proofs.Server.Precedence
import Courier.Proofs.Text.Decimal

/-! What comes of a start when a variable is set to blanks. For the loader it is not set. The
command line takes it as it stands for an option that is silent, so that a blank port stops the
start, and a blank host or database goes before what was loaded. -/

namespace Courier

open Environment

variable {name v : String} {env env' : Environment} {c : CommandLine} {o : Choice}
  {files : Files} {envFile : Option String} {arguments : List String}

theorem Decimal.nat?_blank {cs : List Char} (blank : cs.all Blank.isBlank = true) :
    Decimal.nat? cs = none := by
  cases cs with
  | nil => rfl
  | cons c cs =>
    have first : Decimal.isDigit c = false := by
      rw [← Bool.not_eq_true]
      intro digit
      rw [List.all_cons, Decimal.not_isBlank_of_isDigit digit] at blank
      cases blank
    simp [Decimal.nat?, first]

/-- The configuration with the value of an option; a blank one is no port. -/
def Choice.put (v : String) (s : ServerConfig) : Choice → Option ServerConfig
  | .host => some (s.withHost v)
  | .databaseUrl => some (s.withDatabase v)
  | .config | .port => none

/-- The configuration has the value for the option already. -/
def Choice.Shows (v : String) (s : ServerConfig) : Choice → Prop
  | .host => s.listen.host = v
  | .databaseUrl => s.database.url = some v
  | .config | .port => False

theorem Choice.put_eq_iff (v : String) (s : ServerConfig) (o : Choice) :
    o.put v s = some s ↔ o.Shows v s := by
  obtain ⟨⟨host, port⟩, ⟨url, connections, migrations⟩, platforms, engine⟩ := s
  cases o <;> simp [Choice.put, Choice.Shows, ServerConfig.withHost, ServerConfig.withDatabase, eq_comm]

namespace CommandLine

theorem readPort_blank (blank : Blank.allBlank v = true) : (readPort v).toOption = none := by
  unfold Blank.allBlank at blank
  unfold readPort
  split
  rename_i negative ds digits
  have no_number : Decimal.nat? ds = none := by
    split at digits
    · rename_i rest sign
      rw [sign] at blank
      cases blank
    · rename_i rest sign
      rw [sign] at blank
      cases blank
    · cases digits
      exact Decimal.nat?_blank blank
  rw [no_number]
  split_ifs <;> rfl

/-- An option that is not given takes the value of its variable as it stands. -/
theorem filled_silent (standIn : o.standIn? = some name) (silent : c.given o = false)
    (agree : AgreeBut name env env') (is_set : env.lookup name = some v)
    (unset : env'.lookup name = none) :
    c.filled env = (c.filled env').bind fun c => (c.set o v).toOption := by
  cases o with
  | config => cases standIn
  | port =>
    cases standIn
    have port : c.port = none := by simpa [given] using silent
    simp only [filled, portIn, port, is_set, unset, set, agree Variable.host (by decide),
      agree Variable.databaseUrl (by decide)]
    cases readPort v <;> rfl
  | host =>
    cases standIn
    have host : c.host = none := by simpa [given] using silent
    simp only [filled, host, is_set, unset, portIn_congr (c := c) (Or.inr (agree _ (by decide))),
      agree Variable.databaseUrl (by decide)]
    cases c.portIn env' <;> rfl
  | databaseUrl =>
    cases standIn
    have url : c.databaseUrl = none := by simpa [given] using silent
    simp only [filled, url, is_set, unset, portIn_congr (c := c) (Or.inr (agree _ (by decide))),
      agree Variable.host (by decide)]
    cases c.portIn env' <;> rfl

end CommandLine

namespace Launch

open CommandLine ServerConfig

theorem ofEnvironment_blank (agree : AgreeBut name env env')
    (unset : Ambient.nonBlank? env name = none) (unset' : Ambient.nonBlank? env' name = none) :
    Ambient.ofEnvironment env = Ambient.ofEnvironment env' := by
  have same : ∀ n, Ambient.nonBlank? env n = Ambient.nonBlank? env' n := by
    intro n
    by_cases hn : n = name
    · rw [hn, unset, unset']
    · exact Ambient.nonBlank?_congr agree hn
  simp only [Ambient.ofEnvironment, same]

/-- A blank variable that the file of variables does not name is not there for the loader. -/
theorem start_blank (agree : AgreeBut name env env') (is_set : env.lookup name = some v)
    (unset : env'.lookup name = none) (blank : Blank.allBlank v = true)
    (unnamed : ∀ text ∈ envFile, ¬ name.toList <:+: text.toList) (files : Files)
    (c : CommandLine) : start files envFile env c = start files envFile env' c := by
  have free : ∀ text ∈ envFile, ¬ EnvFile.Refers name text.toList :=
    fun text h refers => unnamed text h refers.named
  refine bind_eq_of_rel (withEnvFile_agree agree free) fun env₁ env₂ read₁ read₂ agree₁ => ?_
  have unset₁ : Ambient.nonBlank? env₁ name = none := by
    rw [Ambient.nonBlank?, lookup_withEnvFile read₁ unnamed, is_set]
    simp [blank]
  have unset₂ : Ambient.nonBlank? env₂ name = none := by
    rw [Ambient.nonBlank?, lookup_withEnvFile read₂ unnamed, unset]
    rfl
  have same : ambient env₁ c.config = ambient env₂ c.config := by
    rw [ambient, ambient, ofEnvironment_blank agree₁ unset₁ unset₂]
  dsimp only
  rw [same]

/-- What one command line puts into the configuration beyond another, it puts into what comes of
it. -/
theorem start_put {c' : CommandLine} (config : c'.config = c.config)
    (migrate : c'.migrate = c.migrate)
    (put : ∀ s, o.put v (c.override s) = some (c'.override s)) :
    start files envFile env c' =
      (start files envFile env c).bind fun l => (o.put v l.config).map fun s => ⟨l.migrate, s⟩ := by
  unfold start
  rw [Option.bind_assoc]
  refine Option.bind_congr fun env₁ _ => ?_
  dsimp only
  rw [config, migrate]
  split_ifs
  · rfl
  · cases (readDocument files (ambient env₁ c.config)).toOption with
    | none => rfl
    | some x => simp [put]

/-- A blank value that an option takes on stops the start or ends up in the configuration. -/
theorem start_set (blank : Blank.allBlank v = true) (other : o ≠ .config) (files : Files)
    (envFile : Option String) (env : Environment) (c : CommandLine) :
    (c.set o v).toOption.bind (start files envFile env) =
      (start files envFile env c).bind fun l => (o.put v l.config).map fun s => ⟨l.migrate, s⟩ := by
  cases o with
  | config => exact absurd rfl other
  | port =>
    have refused : (c.set .port v).toOption = none := by
      have := readPort_blank blank
      unfold CommandLine.set
      dsimp only
      split
      · rename_i n read
        rw [read] at this
        cases this
      · rfl
    rw [refused]
    cases start files envFile env c <;> rfl
  | host =>
    exact start_put rfl rfl fun s => by simp [override_eq, Choice.put, withHost]
  | databaseUrl =>
    exact start_put rfl rfl fun s => by simp [override_eq, Choice.put, withDatabase]

/-- A blank variable for an option that is not given comes to what the start without it comes to,
with the blank value put in; a blank port stops it. -/
theorem outcome_silent {line : CommandLine} (read : readArguments ⟨{}, none⟩ arguments = .ok line)
    (standIn : o.standIn? = some name) (silent : line.given o = false)
    (agree : AgreeBut name env env') (is_set : env.lookup name = some v)
    (unset : env'.lookup name = none) (blank : Blank.allBlank v = true)
    (unnamed : ∀ text ∈ envFile, ¬ name.toList <:+: text.toList) (files : Files) :
    outcome files envFile env arguments = (outcome files envFile env' arguments).bind
      fun l => (o.put v l.config).map fun s => ⟨l.migrate, s⟩ := by
  have option : o ≠ .config := by
    rintro rfl
    cases standIn
  rw [outcome_eq, outcome_eq, read, toOption_ok, Option.bind_some, Option.bind_some,
    filled_silent standIn silent agree is_set unset, Option.bind_assoc, Option.bind_assoc]
  refine Option.bind_congr fun c _ => ?_
  rw [start_set blank option, start_blank agree is_set unset blank unnamed]

theorem bind_put_eq_iff (v : String) (o : Choice) (x : Option Launch) :
    (x.bind fun l => (o.put v l.config).map fun s => ⟨l.migrate, s⟩) = x ↔
      ∀ l, x = some l → o.Shows v l.config := by
  cases x with
  | none => exact iff_of_true rfl fun l h => by cases h
  | some l =>
    obtain ⟨migrate, config⟩ := l
    simp [← Choice.put_eq_iff]

/-- A variable that is set to blanks counts as not set, except where it stands in for an option
that is not given: then it does so only if the start fails without it, too, or already has just
this blank value. -/
theorem outcome_blank_iff (is_set : env.lookup name = some v) (unset : env'.lookup name = none)
    (agree : AgreeBut name env env') (blank : Blank.allBlank v = true)
    (unnamed : ∀ text ∈ envFile, ¬ name.toList <:+: text.toList) (files : Files)
    (arguments : List String) :
    outcome files envFile env arguments = outcome files envFile env' arguments ↔
      ∀ o : Choice, o.standIn? = some name → Gives o arguments ∨
        ∀ l, outcome files envFile env' arguments = some l → o.Shows v l.config := by
  by_cases said : ∀ o : Choice, o.standIn? = some name → Gives o arguments
  · refine iff_of_true ?_ fun o standIn => Or.inl (said o standIn)
    rw [outcome_eq, outcome_eq]
    refine Option.bind_congr fun line read => ?_
    rw [filled_congr agree fun o standIn => given_of_gives (said o standIn) read]
    exact Option.bind_congr fun c _ => start_blank agree is_set unset blank unnamed files c
  · push Not at said
    obtain ⟨o, standIn, not_given⟩ := said
    unfold Gives at not_given
    push Not at not_given
    obtain ⟨line, read, silent⟩ := not_given
    have silent : line.given o = false := by simpa using silent
    rw [outcome_silent read standIn silent agree is_set unset blank unnamed]
    have only : ∀ o' : Choice, o'.standIn? = some name → o' = o :=
      fun o' standIn' => Choice.standIn?_injective standIn' standIn
    have not_given : ¬ Gives o arguments := fun given => by
      rw [given line read] at silent
      cases silent
    rw [bind_put_eq_iff]
    constructor
    · intro shows_ o' standIn'
      rw [only o' standIn']
      exact Or.inr shows_
    · intro all
      exact (all o standIn).resolve_left not_given

/-- A blank list of platforms leaves the usual ones. -/
theorem outcome_blank_iff_sample :
    (outcome [] (some "RUST_LOG=info") [(Variable.platforms, "\t ")] []).isSome = true ∧
      outcome [] (some "RUST_LOG=info") [(Variable.platforms, "\t ")] [] =
        outcome [] (some "RUST_LOG=info") [] [] := by
  have unnamed : ∀ text ∈ some "RUST_LOG=info", ¬ Variable.platforms.toList <:+: text.toList := by
    rintro _ ⟨⟩
    decide +kernel
  refine ⟨by decide +kernel, (outcome_blank_iff (v := "\t ") (by decide +kernel) rfl
    (agreeBut_cons _ _ _) (by decide +kernel) unnamed [] []).2 ?_⟩
  intro o standIn
  cases o <;> exact absurd standIn (by decide)

/-- A blank port stops a start that goes well without it. -/
theorem exists_blank_port_refused :
    AgreeBut Variable.port [(Variable.port, "")] [] ∧ Blank.allBlank "" = true ∧
      (outcome [] none [] []).isSome = true ∧ outcome [] none [(Variable.port, "")] [] = none :=
  ⟨agreeBut_cons _ _ _, by decide +kernel, by decide +kernel,
    Option.isNone_iff_eq_none.1 (by decide +kernel)⟩

end Launch

end Courier
