import Courier.Proofs.Server.Launch

/-! What comes of a start when one variable changes. An option on the command line takes the place
of its variable, but for one thing: the loader reads the variable all the same and fails for a port
that is none. -/

namespace Courier

open Environment

variable {name v : String} {env env' : Environment} {c : CommandLine} {o : Choice}
  {files : Files} {envFile : Option String} {arguments : List String}

namespace Choice

theorem standIn?_injective {o' : Choice} (h : o.standIn? = some name)
    (h' : o'.standIn? = some name) : o = o' := by
  cases o <;> cases o' <;> first | rfl | (cases h; exact absurd h' (by decide)) | cases h

end Choice

namespace CommandLine

/-- If the arguments can be read at all, the option is among them. -/
def Gives (o : Choice) (arguments : List String) : Prop :=
  ∀ c, readArguments ⟨{}, none⟩ arguments = .ok c → c.given o = true

theorem or_congr {α : Type} {x y y' : Option α} (h : x.isSome = true ∨ y = y') :
    x.or y = x.or y' := by
  rcases h with some | same
  · obtain ⟨a, rfl⟩ := Option.isSome_iff_exists.1 some
    rfl
  · rw [same]

theorem portIn_congr (h : c.given .port = true ∨ env.lookup Variable.port = env'.lookup Variable.port) :
    c.portIn env = c.portIn env' := by
  unfold portIn
  rcases h with given | same
  · obtain ⟨n, port⟩ := Option.isSome_iff_exists.1 given
    rw [port]
  · rw [same]

/-- Variables that stand in for no option but such as are given are not read. -/
theorem filled_congr (agree : AgreeBut name env env')
    (said : ∀ o : Choice, o.standIn? = some name → c.given o = true) :
    c.filled env = c.filled env' := by
  have settled : ∀ (o : Choice) (n : String), o.standIn? = some n →
      c.given o = true ∨ env.lookup n = env'.lookup n := by
    intro o n standIn
    by_cases hn : n = name
    · exact Or.inl (said o (hn ▸ standIn))
    · exact Or.inr (agree n hn)
  rw [filled, filled, portIn_congr (settled .port _ rfl), or_congr (settled .host _ rfl),
    or_congr (settled .databaseUrl _ rfl)]

theorem given_filled {c' : CommandLine} (h : c.filled env = some c') (given : c.given o = true) :
    c'.given o = true := by
  obtain ⟨port, read, rfl⟩ := Option.map_eq_some_iff.1 h
  cases o with
  | config => exact given
  | port =>
    obtain ⟨n, said⟩ := Option.isSome_iff_exists.1 given
    rw [portIn, said] at read
    cases read
    rfl
  | host =>
    obtain ⟨host, said⟩ := Option.isSome_iff_exists.1 given
    simp [CommandLine.given, said]
  | databaseUrl =>
    obtain ⟨url, said⟩ := Option.isSome_iff_exists.1 given
    simp [CommandLine.given, said]

end CommandLine

namespace Ambient

/-- All but what stands in for an option. -/
def without (a : Ambient) : Choice → Ambient
  | .port => { a with port := none }
  | .host => { a with host := none }
  | .databaseUrl => { a with databaseUrl := none }
  | .config => a

theorem refusesPort_without (a : Ambient) (other : o ≠ .port) :
    (a.without o).refusesPort = a.refusesPort := by
  cases o with
  | port => exact absurd rfl other
  | config | host | databaseUrl => rfl

theorem nonBlank?_congr (agree : AgreeBut name env env') {n : String} (other : n ≠ name) :
    nonBlank? env n = nonBlank? env' n := by
  rw [nonBlank?, nonBlank?, agree n other]

end Ambient

namespace ServerConfig

theorem readDocument_without (files : Files) (a : Ambient) (o : Choice) :
    readDocument files (a.without o) = readDocument files a := by
  cases o <;> rfl

theorem ambient_without (agree : AgreeBut name env env') (standIn : o.standIn? = some name)
    (path : Option String) : (ambient env path).without o = (ambient env' path).without o := by
  have same : ∀ n, n ≠ name → Ambient.nonBlank? env n = Ambient.nonBlank? env' n :=
    fun n other => Ambient.nonBlank?_congr agree other
  cases o with
  | config => cases standIn
  | port | host | databaseUrl =>
    cases standIn
    simp (disch := decide) only [ambient, Ambient.ofEnvironment, Ambient.without, same]

/-- What an option says goes before what the environment says. -/
theorem override_without (given : c.given o = true) (a : Ambient) (s : ServerConfig) :
    c.override (s.overlaid (a.without o)) = c.override (s.overlaid a) := by
  rw [override_eq, override_eq, overlaid_eq, overlaid_eq]
  cases o with
  | config => rfl
  | port | host | databaseUrl =>
    obtain ⟨value, said⟩ := Option.isSome_iff_exists.1 given
    rw [said]
    rfl

end ServerConfig

namespace Launch

open CommandLine ServerConfig

/-- Once the file of variables has been read, the variable for the port is set to what is none. -/
def RefusesPort (envFile : Option String) (env : Environment) : Prop :=
  ∃ env₁, withEnvFile env envFile = .ok env₁ ∧ (Ambient.ofEnvironment env₁).refusesPort = true

theorem bind_eq_of_rel {α β γ : Type} {r : α → β → Prop} {x : Option α} {y : Option β}
    {f : α → Option γ} {g : β → Option γ} (h : Option.Rel r x y)
    (same : ∀ a b, x = some a → y = some b → r a b → f a = g b) : x.bind f = y.bind g := by
  cases h with
  | none => rfl
  | some hab => exact same _ _ rfl rfl hab

theorem withEnvFile_agree (agree : AgreeBut name env env')
    (free : ∀ text ∈ envFile, ¬ EnvFile.Refers name text.toList) :
    Option.Rel (AgreeBut name) (withEnvFile env envFile).toOption
      (withEnvFile env' envFile).toOption := by
  cases envFile with
  | none => exact .some agree
  | some text =>
    have loaded := EnvFile.load?_agree agree (free text rfl)
    unfold withEnvFile
    dsimp only
    generalize EnvFile.load? env text = e, EnvFile.load? env' text = e' at loaded ⊢
    cases loaded with
    | none => exact .none
    | some agree => exact .some agree

/-- A file sets no variable that it does not name. -/
theorem lookup_withEnvFile {env₁ : Environment} (read : (withEnvFile env envFile).toOption = some env₁)
    (unnamed : ∀ text ∈ envFile, ¬ name.toList <:+: text.toList) :
    env₁.lookup name = env.lookup name := by
  cases envFile with
  | none =>
    cases read
    rfl
  | some text =>
    unfold withEnvFile at read
    dsimp only at read
    split at read
    · rename_i loaded
      cases read
      exact EnvFile.lookup_load? loaded (unnamed text rfl)
    · cases read

/-- Arguments that can be read have the option that they give. -/
theorem given_of_gives {line : CommandLine} (given : Gives o arguments)
    (read : (readArguments ⟨{}, none⟩ arguments).toOption = some line) : line.given o = true := by
  refine given line ?_
  cases parsed : readArguments ⟨{}, none⟩ arguments with
  | error => rw [parsed] at read; cases read
  | ok line' =>
    rw [parsed] at read
    cases read
    rfl

theorem refusesPort_iff {env₁ : Environment} (read : (withEnvFile env envFile).toOption = some env₁)
    (path : Option String) :
    RefusesPort envFile env ↔ (ambient env₁ path).refusesPort = true := by
  cases loaded : withEnvFile env envFile with
  | error => rw [loaded] at read; cases read
  | ok env₂ =>
    rw [loaded] at read
    cases read
    exact ⟨fun ⟨_, same, refused⟩ => by cases loaded.symm.trans same; exact refused,
      fun refused => ⟨_, loaded, refused⟩⟩

theorem outcome_of_refusesPort (refused : RefusesPort envFile env) (files : Files)
    (arguments : List String) : outcome files envFile env arguments = none := by
  obtain ⟨env₁, read, refused⟩ := refused
  have refused : ∀ path, (ambient env₁ path).refusesPort = true := fun _ => refused
  simp [outcome_eq, start, read, toOption_ok, refused]

/-- A complete command line comes to the same if the loader does not mind either port, or minds
both. -/
theorem start_congr (standIn : o.standIn? = some name) (given : c.given o = true)
    (agree : AgreeBut name env env') (free : ∀ text ∈ envFile, ¬ EnvFile.Refers name text.toList)
    (ports : o = .port → (RefusesPort envFile env ↔ RefusesPort envFile env')) (files : Files) :
    start files envFile env c = start files envFile env' c := by
  refine bind_eq_of_rel (withEnvFile_agree agree free) fun env₁ env₂ read₁ read₂ agree₁ => ?_
  have same := ambient_without agree₁ standIn c.config
  have refuse : (ambient env₁ c.config).refusesPort = (ambient env₂ c.config).refusesPort := by
    by_cases port : o = .port
    · have := ports port
      rw [refusesPort_iff read₁ c.config, refusesPort_iff read₂ c.config] at this
      exact Bool.eq_iff_iff.2 this
    · rw [← Ambient.refusesPort_without _ port, same, Ambient.refusesPort_without _ port]
  dsimp only
  rw [refuse, ← readDocument_without files (ambient env₁ c.config) o, same, readDocument_without]
  congr 1
  refine Option.map_congr fun x _ => ?_
  rw [← override_without given (ambient env₁ c.config), same, override_without given]

theorem outcome_congr (standIn : o.standIn? = some name) (given : Gives o arguments)
    (agree : AgreeBut name env env') (free : ∀ text ∈ envFile, ¬ EnvFile.Refers name text.toList)
    (ports : o = .port → (RefusesPort envFile env ↔ RefusesPort envFile env')) (files : Files) :
    outcome files envFile env arguments = outcome files envFile env' arguments := by
  rw [outcome_eq, outcome_eq]
  refine Option.bind_congr fun line read => ?_
  have said := given_of_gives given read
  rw [filled_congr agree fun o' standIn' => Choice.standIn?_injective standIn standIn' ▸ said]
  refine Option.bind_congr fun c filled => ?_
  exact start_congr standIn (given_filled filled said) agree free ports files

/-- An option on the command line takes the place of its variable, whatever that is set to, unless
the loader refuses the variable as a port in one of the starts and the other gets through.

A file of variables that refers to the variable is left out (`free`). Such a file may set any other
variable to the text of this one, and then the two starts differ in that other variable as well,
which no option on the command line speaks for. -/
theorem outcome_given_iff (standIn : o.standIn? = some name) (given : Gives o arguments)
    (agree : AgreeBut name env env') (free : ∀ text ∈ envFile, ¬ EnvFile.Refers name text.toList)
    (files : Files) :
    outcome files envFile env arguments = outcome files envFile env' arguments ↔
      (o = .port → (RefusesPort envFile env ↔ RefusesPort envFile env')) ∨
      (outcome files envFile env arguments = none ∧
        outcome files envFile env' arguments = none) := by
  constructor
  · intro same
    by_cases one : RefusesPort envFile env ∨ RefusesPort envFile env'
    · right
      rcases one with refused | refused
      · have stop := outcome_of_refusesPort refused files arguments
        exact ⟨stop, same ▸ stop⟩
      · have stop := outcome_of_refusesPort refused files arguments
        exact ⟨same ▸ stop, stop⟩
    · rw [not_or] at one
      exact Or.inl fun _ => iff_of_false one.1 one.2
  · rintro (ports | ⟨stop, stop'⟩)
    · exact outcome_congr standIn given agree free ports files
    · rw [stop, stop']

/-- A host on the command line goes before a blank one in the variable. -/
theorem outcome_given_iff_sample :
    (outcome [] (some "RUST_LOG=info") [(Variable.host, "  ")] ["--host", "::1"]).isSome = true ∧
      outcome [] (some "RUST_LOG=info") [(Variable.host, "  ")] ["--host", "::1"] =
        outcome [] (some "RUST_LOG=info") [] ["--host", "::1"] := by
  have given : Gives .host ["--host", "::1"] := by
    have read : readArguments ⟨{}, none⟩ ["--host", "::1"] = .ok { host := some "::1" } := by
      decide +kernel
    intro c h
    cases read.symm.trans h
    rfl
  have unnamed : ¬ Variable.host.toList <:+: "RUST_LOG=info".toList := by decide +kernel
  have free : ∀ text ∈ some "RUST_LOG=info", ¬ EnvFile.Refers Variable.host text.toList := by
    rintro _ ⟨⟩ refers
    exact unnamed refers.named
  exact ⟨by decide +kernel,
    (outcome_given_iff rfl given (agreeBut_cons _ _ _) free []).2 (Or.inl nofun)⟩

/-- A variable that is no port stops the start although a port is given. -/
theorem exists_port_given_and_refused :
    AgreeBut Variable.port [(Variable.port, "eighty")] [] ∧ Gives .port ["--port", "9000"] ∧
      (outcome [] none [] ["--port", "9000"]).isSome = true ∧
      outcome [] none [(Variable.port, "eighty")] ["--port", "9000"] = none := by
  have read : readArguments ⟨{}, none⟩ ["--port", "9000"] = .ok { port := some 9000 } := by
    decide +kernel
  refine ⟨agreeBut_cons _ _ _, ?_, by decide +kernel, ?_⟩
  · intro c h
    cases read.symm.trans h
    rfl
  · exact Option.isNone_iff_eq_none.1 (by decide +kernel)

end Launch

end Courier
