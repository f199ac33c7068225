import Mathlib.Data.List.Infix
import Mathlib.Tactic.SplitIfs
import Courier.Server.EnvFile

/-! How a file of variables depends on the variables that are set before it is read. A variable has
a say in the others only where the text puts its value in; and what the text does not name at all
it does not set. -/

namespace Courier

namespace Environment

variable {name : String} {env env' : Environment}

/-- The two say the same of all variables but one. -/
def AgreeBut (name : String) (env env' : Environment) : Prop :=
  ∀ n, n ≠ name → env.lookup n = env'.lookup n

theorem agreeBut_cons (name v : String) (env : Environment) :
    AgreeBut name ((name, v) :: env) env := by
  intro n other
  have differ : (n == name) = false := by simpa using other
  simp [List.lookup_cons, differ]

/-- Setting one variable, unless it is set already, is of no matter to another. -/
theorem lookup_set {n : String} (other : name ≠ n) (value : String) :
    (if (env.lookup n).isSome then env else env ++ [(n, value)]).lookup name = env.lookup name := by
  split_ifs
  · rfl
  · have differ : (name == n) = false := by simpa using other
    simp [List.lookup_append, List.lookup_cons, differ]

theorem AgreeBut.set (h : AgreeBut name env env') (n value : String) :
    AgreeBut name (if (env.lookup n).isSome then env else env ++ [(n, value)])
      (if (env'.lookup n).isSome then env' else env' ++ [(n, value)]) := by
  intro m hm
  by_cases hn : m = n
  · subst hn
    rw [h m hm]
    split_ifs
    · exact h m hm
    · rw [List.lookup_append, List.lookup_append, h m hm]
  · rw [lookup_set hn, lookup_set hn, h m hm]

end Environment

open Environment

namespace EnvFile

variable {name : String} {env env' : Environment} {cs cs' seen : List Char} {c : Char}

/-- The text puts the value of the variable in somewhere. Without braces a name goes as far as
there are letters and digits. -/
def Refers (name : String) (cs : List Char) : Prop :=
  '$' :: '\x7b' :: name.toList ++ ['\x7d'] <:+: cs ∨
    (name.toList.all Letter.isAlphanumeric = true ∧ '$' :: name.toList <:+: cs)

theorem Refers.mono (h : Refers name cs) (sub : cs <:+: cs') : Refers name cs' :=
  h.imp (fun braced => braced.trans sub) fun bare => ⟨bare.1, bare.2.trans sub⟩

/-- What a text puts in, it names. -/
theorem Refers.named (h : Refers name cs) : name.toList <:+: cs := by
  rcases h with braced | ⟨-, bare⟩
  · exact List.IsInfix.trans ⟨['$', '\x7b'], ['\x7d'], rfl⟩ braced
  · exact (List.suffix_cons '$' name.toList).isInfix.trans bare

namespace Draft

variable {v : Draft}

/-- How a value in reading stands to the characters read so far: a name in reading is the last of
them. -/
inductive Follows (seen : List Char) (v : Draft) : Prop where
  | plain (none : v.naming = .none)
  | bare (n : List Char) (naming : v.naming = .bare n) (extent : v.extent = .inside)
      (escaped : v.escaped = false) (quote : v.quote ≠ .single)
      (letters : n.all Letter.isAlphanumeric = true) (last : '$' :: n.reverse <:+ seen)
  | braced (n : List Char) (naming : v.naming = .braced n) (extent : v.extent = .inside)
      (escaped : v.escaped = false) (quote : v.quote ≠ .single)
      (last : '$' :: '\x7b' :: n.reverse <:+ seen)

theorem substitute_congr {n : List Char} (agree : AgreeBut name env env')
    (other : String.ofList n.reverse ≠ name) (v : Draft) :
    v.substitute env n = v.substitute env' n := by
  rw [substitute, substitute, agree _ other]

/-- A bare name that ends is not the one that the text does not put in. -/
theorem bare_ne {n : List Char} (letters : n.all Letter.isAlphanumeric = true)
    (last : '$' :: n.reverse <:+: cs) (free : ¬ Refers name cs) : String.ofList n.reverse ≠ name := by
  rintro rfl
  refine free (Or.inr ?_)
  rw [String.toList_ofList, List.all_reverse]
  exact ⟨letters, last⟩

theorem braced_ne {n : List Char} (last : '$' :: '\x7b' :: n.reverse ++ ['\x7d'] <:+: cs)
    (free : ¬ Refers name cs) : String.ofList n.reverse ≠ name := by
  rintro rfl
  refine free (Or.inl ?_)
  rw [String.toList_ofList]
  exact last

/-- A character outside quotes starts a name or leaves none in reading. -/
theorem nextPlain_follows (none : v.naming = .none) (extent : v.extent = .inside)
    (escaped : v.escaped = false) (quote : v.quote ≠ .single) :
    (v.nextPlain c).Follows (seen ++ [c]) := by
  unfold nextPlain
  split_ifs with dollar
  · subst dollar
    exact .bare [] rfl extent escaped quote rfl (List.suffix_append seen ['$'])
  all_goals exact .plain none

theorem next_plain (none : v.naming = .none) : v.next env c = v.next env' c ∧
    ∀ v₁, v.next env c = some v₁ → v₁.Follows (seen ++ [c]) := by
  unfold next
  cases extent : v.extent with
  | finished => exact ⟨rfl, fun v₁ h => Option.some.inj h ▸ .plain none⟩
  | after =>
    refine ⟨rfl, fun v₁ h => ?_⟩
    dsimp only at h
    split_ifs at h
    · exact Option.some.inj h ▸ .plain none
    · exact Option.some.inj h ▸ .plain none
  | inside =>
    simp only [none, nextInName, true_and]
    intro v₁ h
    split_ifs at h with escaped quote closes
    · unfold nextEscaped at h
      split_ifs at h
      · exact Option.some.inj h ▸ .plain none
      · exact Option.some.inj h ▸ .plain none
    · exact Option.some.inj h ▸ .plain rfl
    · exact Option.some.inj h ▸ .plain none
    · exact Option.some.inj h ▸ nextPlain_follows none extent (by simpa using escaped) quote

/-- One more character of a text that does not put the variable in is read alike. -/
theorem next_congr (agree : AgreeBut name env env') (follows : v.Follows seen)
    (free : ¬ Refers name (seen ++ [c])) :
    v.next env c = v.next env' c ∧ ∀ v₁, v.next env c = some v₁ → v₁.Follows (seen ++ [c]) := by
  have here : ∀ env, v.extent = .inside → v.escaped = false → v.quote ≠ .single →
      v.next env c = some (v.nextInName env c v.naming) := by
    intro env extent escaped quote
    simp [next, extent, escaped, quote]
  have grow : ∀ {l : List Char}, l <:+ seen → l ++ [c] <:+ seen ++ [c] := by
    rintro l ⟨before, rfl⟩
    exact ⟨before, by simp⟩
  cases follows with
  | plain none => exact next_plain none
  | bare n naming extent escaped quote letters last =>
    have other : String.ofList n.reverse ≠ name :=
      bare_ne letters (last.isInfix.trans (List.prefix_append seen [c]).isInfix) free
    rw [here env extent escaped quote, here env' extent escaped quote, naming]
    simp only [nextInName, substitute_congr agree other v, true_and]
    rintro v₁ h
    rw [← Option.some.inj h]
    split_ifs with letter brace dollar
    · exact .bare (c :: n) rfl extent escaped quote (by simp [letter, letters])
        (by simpa using grow last)
    · obtain ⟨rfl, empty⟩ := by simpa using brace
      subst empty
      exact .braced [] rfl extent escaped quote (grow last)
    · subst dollar
      exact .bare [] rfl extent escaped quote rfl (List.suffix_append seen ['$'])
    · exact .plain rfl
  | braced n naming extent escaped quote last =>
    rw [here env extent escaped quote, here env' extent escaped quote, naming]
    simp only [nextInName]
    by_cases closes : c = '\x7d'
    · subst closes
      have other : String.ofList n.reverse ≠ name := braced_ne (grow last).isInfix free
      rw [if_pos rfl, if_pos rfl, substitute_congr agree other v]
      exact ⟨rfl, fun v₁ h => Option.some.inj h ▸ .plain rfl⟩
    · rw [if_neg closes, if_neg closes]
      refine ⟨rfl, fun v₁ h => Option.some.inj h ▸ ?_⟩
      exact .braced (c :: n) rfl extent escaped quote (by simpa using grow last)

theorem foldlM_next_congr (agree : AgreeBut name env env') (follows : v.Follows seen)
    (free : ¬ Refers name (seen ++ cs)) :
    cs.foldlM (next env) v = cs.foldlM (next env') v ∧
      ∀ v₁, cs.foldlM (next env) v = some v₁ → v₁.Follows (seen ++ cs) := by
  induction cs generalizing v seen with
  | nil => exact ⟨rfl, fun v₁ h => Option.some.inj h ▸ by simpa using follows⟩
  | cons c cs ih =>
    rw [List.append_cons] at free ⊢
    have first : ¬ Refers name (seen ++ [c]) := fun h =>
      free (h.mono (List.prefix_append _ _).isInfix)
    obtain ⟨same, onward⟩ := next_congr agree follows first
    rw [List.foldlM_cons, List.foldlM_cons, ← same]
    cases step : v.next env c with
    | none => exact ⟨rfl, nofun⟩
    | some v' => exact ih (onward v' step) free

theorem finish?_congr (agree : AgreeBut name env env') (follows : v.Follows cs)
    (free : ¬ Refers name cs) : v.finish? env = v.finish? env' := by
  unfold finish?
  cases follows with
  | plain none => simp only [none]
  | bare n naming _ _ _ letters last =>
    simp only [naming, substitute_congr agree (bare_ne letters last.isInfix free) v]
  | braced n naming => simp only [naming]

end Draft

/-- The value of a line does not depend on a variable that the line does not put in. -/
theorem readValue_congr (agree : AgreeBut name env env') (free : ¬ Refers name cs) :
    readValue env cs = readValue env' cs := by
  have start : Draft.start.Follows [] := .plain rfl
  obtain ⟨same, follows⟩ := Draft.foldlM_next_congr agree start free
  unfold readValue
  rw [← same]
  cases read : cs.foldlM (Draft.next env) .start with
  | none => rfl
  | some v => exact Draft.finish?_congr agree (follows v read) free

theorem trim_isInfix (cs : List Char) : Blank.trim cs <:+: cs := by
  have start : Blank.trimStart cs <:+ cs := List.dropWhile_suffix _
  have end_ : Blank.trim cs <+: Blank.trimStart cs := by
    rw [Blank.trim, Blank.trimEnd, ← List.reverse_suffix, List.reverse_reverse]
    exact List.dropWhile_suffix _
  exact end_.isInfix.trans start.isInfix

theorem readName_isInfix {n : String} {rest : List Char} (h : readName cs = some (n, rest)) :
    n.toList <:+: cs ∧ rest <:+: cs := by
  unfold readName at h
  split at h
  · rename_i c more
    split_ifs at h
    obtain ⟨rfl, rfl⟩ := Prod.mk.inj (Option.some.inj h)
    rw [String.toList_ofList]
    exact ⟨(List.takeWhile_prefix _).isInfix,
      ((List.dropWhile_suffix _).trans (List.dropWhile_suffix _)).isInfix⟩
  · cases h

/-- The name that a line sets and its value both stand in the line. -/
theorem readHead_isInfix {n : String} {rest : List Char} (h : readHead cs = some (n, rest)) :
    n.toList <:+: cs ∧ rest <:+: cs := by
  have behind : ∀ {l : List Char}, '=' :: rest <:+: l → rest <:+: l :=
    fun h => (List.suffix_cons '=' rest).isInfix.trans h
  unfold readHead at h
  obtain ⟨⟨n₁, rest₁⟩, first, h⟩ := Option.bind_eq_some_iff.1 h
  obtain ⟨name_in, rest_in⟩ := readName_isInfix first
  split at h
  · rename_i head
    cases head
    cases h
    exact ⟨name_in, behind rest_in⟩
  · rename_i head
    cases head
    obtain ⟨⟨n₂, rest₂⟩, second, h⟩ := Option.bind_eq_some_iff.1 h
    obtain ⟨name_in₂, rest_in₂⟩ := readName_isInfix second
    split at h
    · rename_i head
      cases head
      cases h
      exact ⟨name_in₂.trans rest_in, behind (rest_in₂.trans rest_in)⟩
    · cases h
  · cases h

/-- The value that a line gives. -/
def valueOf (env : Environment) (rest : List Char) : Option String :=
  if rest.isEmpty || rest.head? == some '#' then some "" else readValue env rest

theorem setLine?_eq (env : Environment) (line : List Char) : setLine? env line =
    if (Blank.trim line).isEmpty || (Blank.trim line).head? == some '#' then some env
    else (readHead (Blank.trim line)).bind fun head =>
      (valueOf env (Blank.trimStart head.2)).map fun value =>
        if (env.lookup head.1).isSome then env else env ++ [(head.1, value)] := by
  unfold setLine? valueOf
  dsimp only
  split
  · rfl
  · cases readHead (Blank.trim line) with
    | none => rfl
    | some head =>
      simp only [bind, Option.bind_some]
      split
      · rfl
      · cases readValue env (Blank.trimStart head.2) <;> rfl

theorem valueOf_congr (agree : AgreeBut name env env') {rest : List Char}
    (free : ¬ Refers name rest) : valueOf env rest = valueOf env' rest := by
  unfold valueOf
  rw [readValue_congr agree free]

/-- A line that does not put the variable in can be read or not whatever the variable is, and
leaves the environments agreeing on all others. -/
theorem setLine?_agree (agree : AgreeBut name env env') {line : List Char}
    (free : ¬ Refers name line) :
    Option.Rel (AgreeBut name) (setLine? env line) (setLine? env' line) := by
  rw [setLine?_eq, setLine?_eq]
  split
  · exact .some agree
  · cases read : readHead (Blank.trim line) with
    | none => exact .none
    | some head =>
      have inside : Blank.trimStart head.2 <:+: line :=
        (List.dropWhile_suffix _).isInfix.trans
          ((readHead_isInfix read).2.trans (trim_isInfix line))
      simp only [Option.bind_some]
      rw [valueOf_congr agree fun h => free (h.mono inside)]
      cases valueOf env' (Blank.trimStart head.2) with
      | none => exact .none
      | some value => exact .some (agree.set head.1 value)

/-- A line sets no variable that it does not name. -/
theorem lookup_setLine? {line : List Char} {env₁ : Environment} (h : setLine? env line = some env₁)
    (unnamed : ¬ name.toList <:+: line) : env₁.lookup name = env.lookup name := by
  rw [setLine?_eq] at h
  split at h
  · rw [Option.some.inj h]
  · obtain ⟨head, read, h⟩ := Option.bind_eq_some_iff.1 h
    obtain ⟨value, -, rfl⟩ := Option.map_eq_some_iff.1 h
    have other : name ≠ head.1 := by
      rintro rfl
      exact unnamed ((readHead_isInfix read).1.trans (trim_isInfix line))
    exact lookup_set other value

/-! The lines of a text are parts of it. -/

theorem flatten_splitLines (cs : List Char) : (splitLines cs).flatten = cs := by
  induction cs with
  | nil => rfl
  | cons c cs ih =>
    unfold splitLines
    split_ifs
    · rw [List.flatten_cons, ih]
      rfl
    · split
      · rename_i last
        rw [← ih, last]
        rfl
      · rename_i l ls more
        rw [← ih, more]
        rfl

theorem scan_prefix (p : Place) (cs : List Char) : (p.scan cs).1 <+: cs := by
  induction cs generalizing p with
  | nil => exact List.prefix_refl _
  | cons c cs ih =>
    unfold Place.scan
    split
    · exact List.nil_prefix
    · exact List.cons_prefix_cons.2 ⟨rfl, ih _⟩

theorem joinLines?_isInfix {open_ : List Char} {p : Place} {ls out : List (List Char)}
    (h : joinLines? open_ p ls = some out) : ∀ line ∈ out, line <:+: open_ ++ ls.flatten := by
  induction ls generalizing open_ p out with
  | nil =>
    unfold joinLines? at h
    split_ifs at h
    cases h
    simp
  | cons l ls ih =>
    have later : ∀ {x : List Char}, x <:+: [] ++ ls.flatten → x <:+: open_ ++ (l :: ls).flatten := by
      intro x hx
      rw [List.flatten_cons, ← List.append_assoc]
      exact hx.trans (List.suffix_append _ _).isInfix
    have whole : open_ ++ l <:+: open_ ++ (l :: ls).flatten := by
      rw [List.flatten_cons, ← List.append_assoc]
      exact (List.prefix_append _ _).isInfix
    unfold joinLines? at h
    dsimp only at h
    split at h
    · exact fun line hline => later (ih h line hline)
    · split at h
      · rename_i part scanned
        obtain ⟨more, read, rfl⟩ := Option.map_eq_some_iff.1 h
        have start : part <+: l := by simpa [scanned] using scan_prefix p l
        intro line hline
        rcases List.mem_cons.1 hline with rfl | hline
        · exact ((List.prefix_append_right_inj open_).2 start).isInfix.trans whole
        · exact later (ih read line hline)
      · obtain ⟨more, read, rfl⟩ := Option.map_eq_some_iff.1 h
        intro line hline
        rcases List.mem_cons.1 hline with rfl | hline
        · exact whole
        · exact later (ih read line hline)
      · intro line hline
        have := ih h line hline
        rwa [List.append_assoc, ← List.flatten_cons] at this

/-- The lines of a file are the same whatever is set before it is read. -/
theorem load?_lines (text : String) : ∃ lines? : Option (List (List Char)),
    (∀ lines ∈ lines?, ∀ line ∈ lines, line <:+: text.toList) ∧
    ∀ env, load? env text = lines?.bind fun lines => lines.foldlM setLine? env := by
  have of_suffix : ∀ cs, cs <:+ text.toList → ∀ lines ∈ joinLines? [] .bare (splitLines cs),
      ∀ line ∈ lines, line <:+: text.toList := by
    intro cs part lines read line hline
    have inside := joinLines?_isInfix read line hline
    rw [flatten_splitLines] at inside
    exact inside.trans part.isInfix
  unfold load?
  split
  · rename_i cs mark
    exact ⟨_, of_suffix cs (mark ▸ List.suffix_cons _ cs), fun env => rfl⟩
  · exact ⟨_, of_suffix _ (List.suffix_refl _), fun env => rfl⟩

theorem foldlM_setLine?_agree (agree : AgreeBut name env env') {lines : List (List Char)}
    (free : ∀ line ∈ lines, ¬ Refers name line) :
    Option.Rel (AgreeBut name) (lines.foldlM setLine? env) (lines.foldlM setLine? env') := by
  induction lines generalizing env env' with
  | nil => exact .some agree
  | cons line lines ih =>
    rw [List.forall_mem_cons] at free
    rw [List.foldlM_cons, List.foldlM_cons]
    have first := setLine?_agree agree free.1
    generalize setLine? env line = e₁, setLine? env' line = e₁' at first ⊢
    cases first with
    | none => exact .none
    | some onward => exact ih onward free.2

theorem lookup_foldlM_setLine? {lines : List (List Char)} {env₁ : Environment}
    (h : lines.foldlM setLine? env = some env₁)
    (unnamed : ∀ line ∈ lines, ¬ name.toList <:+: line) : env₁.lookup name = env.lookup name := by
  induction lines generalizing env with
  | nil => rw [Option.some.inj h]
  | cons line lines ih =>
    rw [List.forall_mem_cons] at unnamed
    rw [List.foldlM_cons] at h
    obtain ⟨env₂, first, rest⟩ := Option.bind_eq_some_iff.1 h
    rw [ih rest unnamed.2, lookup_setLine? first unnamed.1]

/-- A file that does not put a variable in can be read or not whatever the variable is, and gives
environments that agree on all others. -/
theorem load?_agree (agree : AgreeBut name env env') {text : String}
    (free : ¬ Refers name text.toList) :
    Option.Rel (AgreeBut name) (load? env text) (load? env' text) := by
  obtain ⟨lines?, inside, load_eq⟩ := load?_lines text
  rw [load_eq, load_eq]
  cases lines? with
  | none => exact .none
  | some lines =>
    exact foldlM_setLine?_agree agree fun line hline h => free (h.mono (inside lines rfl line hline))

/-- A file sets no variable that it does not name. -/
theorem lookup_load? {text : String} {env₁ : Environment} (h : load? env text = some env₁)
    (unnamed : ¬ name.toList <:+: text.toList) : env₁.lookup name = env.lookup name := by
  obtain ⟨lines?, inside, load_eq⟩ := load?_lines text
  rw [load_eq] at h
  obtain ⟨lines, rfl, h⟩ := Option.bind_eq_some_iff.1 h
  exact lookup_foldlM_setLine? h fun line hline at_ => unnamed (at_.trans (inside lines rfl line hline))

end EnvFile

end Courier
