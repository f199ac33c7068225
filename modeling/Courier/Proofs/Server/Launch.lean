import Courier.Server.Launch
import Courier.Proofs.Server.EnvFile

/-! What a program starts with, as one expression of the command line, the variables and the
files. Two stages read the variables: the command line takes one as it stands for an option that is
silent, and the loader takes those that are not blank once the file of variables has been read. -/

namespace Courier

theorem toOption_ok {ε α : Type} (a : α) : (.ok a : Except ε α).toOption = some a := rfl

theorem toOption_bind {ε α β : Type} (x : Except ε α) (f : α → Except ε β) :
    (x >>= f).toOption = x.toOption.bind fun a => (f a).toOption := by
  cases x <;> rfl

theorem toOption_mapError {ε ε' α : Type} (x : Except ε α) (f : ε → ε') :
    (x.mapError f).toOption = x.toOption := by
  cases x <;> rfl

namespace CommandLine

/-- The port of a command line, or of the variable where it is silent; fails for what is none. -/
def portIn (env : Environment) (c : CommandLine) : Option (Option Nat) :=
  match c.port, env.lookup Variable.port with
  | none, some text => (readPort text).toOption.map some
  | port, _ => some port

/-- A command line with what the variables say where it is silent. -/
def filled (env : Environment) (c : CommandLine) : Option CommandLine :=
  (c.portIn env).map fun port =>
    { c with
      port := port
      host := c.host.or (env.lookup Variable.host)
      databaseUrl := c.databaseUrl.or (env.lookup Variable.databaseUrl) }

theorem fallBack_port (env : Environment) (c : CommandLine) :
    (fallBack env c .port).toOption = (c.portIn env).map fun port => { c with port := port } := by
  unfold fallBack portIn given
  cases port : c.port with
  | some n =>
    obtain ⟨config, port', host, url, migrate⟩ := c
    cases port
    rfl
  | none =>
    simp only [Option.isSome_none, Bool.false_eq_true, if_false, Choice.standIn?, Option.bind_some]
    cases env.lookup Variable.port with
    | none =>
      obtain ⟨config, port', host, url, migrate⟩ := c
      cases port
      rfl
    | some text =>
      simp only [set]
      cases readPort text <;> rfl

theorem fallBack_host (env : Environment) (c : CommandLine) :
    fallBack env c .host = .ok { c with host := c.host.or (env.lookup Variable.host) } := by
  obtain ⟨config, port, host, url, migrate⟩ := c
  unfold fallBack given
  cases host with
  | some h => rfl
  | none =>
    simp only [Option.isSome_none, Bool.false_eq_true, if_false, Choice.standIn?, Option.bind_some,
      Option.none_or]
    cases env.lookup Variable.host <;> rfl

theorem fallBack_databaseUrl (env : Environment) (c : CommandLine) : fallBack env c .databaseUrl =
    .ok { c with databaseUrl := c.databaseUrl.or (env.lookup Variable.databaseUrl) } := by
  obtain ⟨config, port, host, url, migrate⟩ := c
  unfold fallBack given
  cases url with
  | some u => rfl
  | none =>
    simp only [Option.isSome_none, Bool.false_eq_true, if_false, Choice.standIn?, Option.bind_some,
      Option.none_or]
    cases env.lookup Variable.databaseUrl <;> rfl

theorem fallBack_config (env : Environment) (c : CommandLine) : fallBack env c .config = .ok c := by
  unfold fallBack
  split_ifs <;> rfl

/-- The variables fill in where the command line is silent. -/
theorem toOption_read (env : Environment) (arguments : List String) :
    (read env arguments).toOption =
      (readArguments ⟨{}, none⟩ arguments).toOption.bind (filled env) := by
  unfold read
  rw [toOption_bind]
  refine Option.bind_congr fun c _ => ?_
  simp only [Choice.all, List.foldlM_cons, List.foldlM_nil, toOption_bind, toOption_ok,
    Option.bind_some, fallBack_config, fallBack_port, fallBack_host, fallBack_databaseUrl, filled]
  cases c.portIn env <;> rfl

end CommandLine

namespace Ambient

/-- The port that a variable names is none. -/
def refusesPort (a : Ambient) : Bool := a.port.any fun text => (Decimal.unsigned? 65535 text).isNone

end Ambient

namespace ServerConfig

/-- A document with the single settings that the environment replaces. -/
def overlaid (a : Ambient) (c : ServerConfig) : ServerConfig :=
  let c := c.replaceHost a
  let c := (a.port.bind (Decimal.unsigned? 65535)).elim c fun port => c.withPort port
  (c.replaceDatabase a).replacePlatforms a

theorem overlaid_eq (a : Ambient) (c : ServerConfig) : c.overlaid a =
    { listen := ⟨a.host.getD c.listen.host,
        (a.port.bind (Decimal.unsigned? 65535)).getD c.listen.port⟩
      database := { c.database with url := a.databaseUrl.or c.database.url }
      platforms := (a.platforms.map splitPlatforms).getD c.platforms
      engine := c.engine } := by
  obtain ⟨⟨host, port⟩, database, platforms, engine⟩ := c
  unfold overlaid replaceHost replaceDatabase replacePlatforms
  cases a.host <;> cases a.port.bind (Decimal.unsigned? 65535) <;> cases a.databaseUrl <;>
    cases a.platforms <;> rfl

theorem override_eq (c : CommandLine) (s : ServerConfig) : c.override s =
    { s with
      listen := ⟨c.host.getD s.listen.host, c.port.getD s.listen.port⟩
      database := { s.database with url := c.databaseUrl.or s.database.url } } := by
  obtain ⟨⟨host, port⟩, database, platforms, engine⟩ := s
  unfold CommandLine.override
  cases c.host <;> cases c.port <;> cases c.databaseUrl <;> rfl

/-- Loading fails for a port that is none; else the document decides, with its settings replaced. -/
theorem toOption_compose (files : Files) (a : Ambient) :
    (compose files a).toOption = if a.refusesPort then none else
      (readDocument files a).toOption.map fun x => ⟨overlaid a x.1, x.2, false⟩ := by
  unfold compose Ambient.refusesPort overlaid
  rw [toOption_bind]
  cases readDocument files a with
  | error => split_ifs <;> rfl
  | ok x =>
    simp only [replacePort]
    cases a.port with
    | none => rfl
    | some text =>
      simp only [Option.any_some, Option.bind_some]
      cases Decimal.unsigned? 65535 text <;> rfl

/-- The part of the environment that the loader takes, a path given going before the one in it. -/
def ambient (env : Environment) (path : Option String) : Ambient :=
  let a := Ambient.ofEnvironment env
  { a with configPath := path.orElse fun _ => a.configPath }

theorem toOption_load (files : Files) (envFile path : Option String) (env : Environment) :
    ((load files envFile path env).toOption.map Loaded.config) =
      (withEnvFile env envFile).toOption.bind fun env =>
        let a := ambient env path
        if a.refusesPort then none else
          (readDocument files a).toOption.map fun x => overlaid a x.1 := by
  unfold load
  rw [toOption_bind, Option.map_bind]
  refine Option.bind_congr fun env _ => ?_
  change Option.map Loaded.config (compose files (ambient env path) >>= _).toOption = _
  rw [toOption_bind, toOption_compose]
  generalize ambient env path = a
  dsimp only
  split_ifs
  · rfl
  · cases (readDocument files a).toOption <;> rfl

end ServerConfig

namespace Launch

/-- What comes of a start: what is run with which configuration, or a failure of whatever cause. -/
def outcome (files : Files) (envFile : Option String) (env : Environment)
    (arguments : List String) : Option Launch := (prepare files envFile env arguments).toOption

/-- What a complete command line comes to with the files and the variables. -/
def start (files : Files) (envFile : Option String) (env : Environment) (c : CommandLine) :
    Option Launch :=
  (ServerConfig.withEnvFile env envFile).toOption.bind fun env =>
    let a := ServerConfig.ambient env c.config
    if a.refusesPort then none else
      (ServerConfig.readDocument files a).toOption.map fun x =>
        ⟨c.migrate, c.override (x.1.overlaid a)⟩

theorem outcome_eq (files : Files) (envFile : Option String) (env : Environment)
    (arguments : List String) : outcome files envFile env arguments =
      (CommandLine.readArguments ⟨{}, none⟩ arguments).toOption.bind fun line =>
        (line.filled env).bind (start files envFile env) := by
  unfold outcome prepare
  simp only [toOption_bind, toOption_mapError, CommandLine.toOption_read, Option.bind_assoc]
  refine Option.bind_congr fun line _ => Option.bind_congr fun c _ => ?_
  have of_config : ∀ l : Option Loaded,
      (l.bind fun l => (pure ⟨c.migrate, c.override l.config⟩ : Except LaunchError Launch).toOption) =
        (l.map Loaded.config).map fun s => ⟨c.migrate, c.override s⟩ := by
    intro l
    cases l <;> rfl
  rw [of_config, ServerConfig.toOption_load, Option.map_bind]
  refine Option.bind_congr fun env _ => ?_
  dsimp only [Function.comp]
  split_ifs
  · rfl
  · rw [Option.map_map]
    rfl

end Launch

end Courier
