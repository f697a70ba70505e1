import Nerea.Agents.Tools

/-!
# When the file tools stay inside

`_resolveSandboxed` checks where the parent of a path leads, as a text prefix, and hands
on the path itself. What a tool then reaches is inside the two directories exactly when
the last name keeps it there: the parent must lead inside, not only to a name that
starts alike, `..` must not leave, and a link must lead inside.
-/

set_option autoImplicit false

namespace Nerea.Agents

open PosixTree

namespace Entorno
variable (env : Entorno)

def dentro (loc : Loc) : Bool :=
  [env.docs, env.sup].any fun p =>
    match env.realpath p with
    | some (dir, _) => dir.isPrefixOf loc
    | none => false

/-- The last name of a path, after a parent that leads to `d`, keeps what `acepta` holds
of inside. -/
def ultimoSeguro (acepta : Loc → Bool) (d : Loc) (k : ℕ) : List Name → Bool
  | [] => !acepta d || env.dentro d
  | n :: resto =>
    if env.arbol.isDir d = false then true
    else if n = dot then !acepta d || env.dentro d
    else if n = dotdot then !acepta d.dropLast || env.dentro d.dropLast
    else
      match env.arbol.lookup (d ++ [n]) with
      | some (.link _) =>
        match env.arbol.walk k d (n :: resto) with
        | some (loc, _) => !acepta loc || env.dentro loc
        | none => true
      | _ => (!resto.isEmpty && !env.arbol.isDir (d ++ [n])) || !acepta (d ++ [n]) ||
          env.dentro (d ++ [n])

/-- The parent is missing, or starts with neither directory's path, or the last name is
safe. -/
def seguro (acepta : Path → Loc → Bool) (path : Path) : Bool :=
  let f := env.fileOf path
  match env.realpath (parentOf f) with
  | none => true
  | some (d, k) => !env.startsInside d || env.ultimoSeguro (acepta f) d k (lastPart f)

/-- What a tool touches when its path leads there. -/
def acepta (name : String) (f : Path) (loc : Loc) : Bool :=
  match name with
  | "read_file" => env.arbol.isFile loc
  | "parse_local_doc" => env.arbol.isFile loc
  | "write_file" => env.isDirPath (parentOf f) &&
      (env.arbol.isFile loc || (env.arbol.lookup loc).isNone)
  | "list_dir" => env.arbol.isDir loc
  | _ => false

/-- The path a call asks for, when its arguments have the types the tool wants. -/
def rutaPedida (name : String) (args : Args) : Option Path :=
  match name with
  | "read_file" => ((argString args "path" ".").toOption).map String.toList
  | "parse_local_doc" => ((argString args "path" ".").toOption).map String.toList
  | "list_dir" => ((argString args "path" ".").toOption).map String.toList
  | "write_file" =>
    match argString args "content" "" with
    | .error _ => none
    | .ok _ => ((argString args "path" "").toOption).map String.toList
  | _ => none

theorem resolve_eq (f : Path) : env.resolve f =
    ((env.arbol.walk env.maxLinks (env.arbol.start (parentOf f)) (components (parentOf f))).bind
      fun r => env.arbol.walk r.2 r.1 (lastPart f)).map Prod.fst := by
  rw [resolve, PosixTree.Tree.resolve, PosixTree.Tree.walk_components]

theorem lastPart_cases (p : Path) :
    lastPart p = [] ∨ ∃ n, lastPart p = [n] ∨ lastPart p = [n, dot] := by
  obtain ⟨q, s, n, a, -, -, -, -, -, -, -, -, hlast⟩ := exists_parts p
  rw [hlast]
  split
  · exact Or.inl rfl
  · refine Or.inr ⟨n, ?_⟩
    split
    · exact Or.inr rfl
    · exact Or.inl rfl

theorem walk_concat_dot {k k' : ℕ} {d loc : Loc} {n : Name}
    (h : env.arbol.walk k d [n] = some (loc, k')) :
    env.arbol.walk k d [n, dot] = if env.arbol.isDir loc then some (loc, k') else none := by
  have happ := env.arbol.walk_append k d [n] [dot]
  rw [List.singleton_append] at happ
  rw [happ, h, Option.bind_some]
  split
  · rename_i hdir
    exact env.arbol.walk_dot hdir
  · rename_i hdir
    exact env.arbol.walk_of_not_isDir (Bool.not_eq_true _ ▸ hdir) dot []

def Contenido (acepta : Loc → Bool) (w : Option (Loc × ℕ)) : Prop :=
  ∀ r, w = some r → acepta r.1 = true → env.dentro r.1 = true

theorem contenido_none (acepta : Loc → Bool) : env.Contenido acepta none := by
  intro r hr
  cases hr

theorem contenido_some (acepta : Loc → Bool) (loc : Loc) (k : ℕ) :
    env.Contenido acepta (some (loc, k)) ↔ (!acepta loc || env.dentro loc) = true := by
  constructor
  · intro h
    cases hacepta : acepta loc with
    | false => rfl
    | true => simpa using h _ rfl hacepta
  · rintro h r hr hacepta
    obtain rfl := Option.some.inj hr
    simpa [hacepta] using h

theorem ultimoSeguro_iff (acepta : Loc → Bool) (d : Loc) (k : ℕ) (p : Path) :
    env.ultimoSeguro acepta d k (lastPart p) = true ↔
      env.Contenido acepta (env.arbol.walk k d (lastPart p)) := by
  rcases lastPart_cases p with hp | ⟨n, hp⟩
  · rw [hp, PosixTree.Tree.walk_nil, contenido_some]
    rfl
  cases hdir : env.arbol.isDir d with
  | false =>
    have hcons (resto : List Name) : env.ultimoSeguro acepta d k (n :: resto) = true ↔
        env.Contenido acepta (env.arbol.walk k d (n :: resto)) := by
      rw [env.arbol.walk_of_not_isDir hdir]
      exact iff_of_true (by simp [ultimoSeguro, hdir]) (env.contenido_none acepta)
    rcases hp with hp | hp <;>
    · rw [hp]
      exact hcons _
  | true =>
    by_cases hdot : n = dot
    · have hwalk := env.arbol.walk_dot (k := k) hdir
      have hwalk' := env.walk_concat_dot hwalk
      rw [hdir, if_pos rfl] at hwalk'
      rcases hp with hp | hp <;>
      · simp only [hp, hdot, hwalk, hwalk', contenido_some, ultimoSeguro, hdir, if_true,
          Bool.true_eq_false, if_false]
    by_cases hdotdot : n = dotdot
    · have hwalk := env.arbol.walk_dotdot (k := k) hdir
      have hwalk' := env.walk_concat_dot hwalk
      rw [env.arbol.isDir_dropLast hdir, if_pos rfl] at hwalk'
      have hne : dotdot ≠ dot := by decide
      rcases hp with hp | hp <;>
      · simp only [hp, hdotdot, hwalk, hwalk', contenido_some, ultimoSeguro, hdir, if_true,
          Bool.true_eq_false, if_false, if_neg hne]
    by_cases hlink : ∃ target, env.arbol.lookup (d ++ [n]) = some (.link target)
    · obtain ⟨target, hlink⟩ := hlink
      have hcons (resto : List Name) : env.ultimoSeguro acepta d k (n :: resto) = true ↔
          env.Contenido acepta (env.arbol.walk k d (n :: resto)) := by
        simp only [ultimoSeguro, hdir, hdot, hdotdot, hlink, Bool.true_eq_false, if_false]
        cases hw : env.arbol.walk k d (n :: resto) with
        | none => exact iff_of_true rfl (env.contenido_none acepta)
        | some r => exact (env.contenido_some acepta r.1 r.2).symm
      rcases hp with hp | hp <;>
      · rw [hp]
        exact hcons _
    · have hnot (target : Path) : env.arbol.lookup (d ++ [n]) ≠ some (.link target) :=
        fun h => hlink ⟨target, h⟩
      have hwalk := env.arbol.walk_name (k := k) hdir hdot hdotdot hnot
      have hwalk' := env.walk_concat_dot hwalk
      have hseguro (resto : List Name) : env.ultimoSeguro acepta d k (n :: resto) =
          ((!resto.isEmpty && !env.arbol.isDir (d ++ [n])) || !acepta (d ++ [n]) ||
            env.dentro (d ++ [n])) := by
        simp only [ultimoSeguro, hdir, hdot, hdotdot, Bool.true_eq_false, if_false]
      rcases hp with hp | hp
      · rw [hp, hwalk, hseguro, contenido_some, List.isEmpty_nil, Bool.not_true, Bool.false_and,
          Bool.false_or]
      · rw [hp, hwalk', hseguro]
        cases hlast : env.arbol.isDir (d ++ [n]) with
        | false => exact iff_of_true rfl (env.contenido_none acepta)
        | true =>
          rw [if_pos rfl, contenido_some]
          rfl

/-- What a tool may then reach through a path that passed is inside exactly when the path
is safe. -/
theorem resolveSandboxed_iff (acepta : Path → Loc → Bool) (path : Path) :
    (∀ f loc, env.resolveSandboxed path = .ok (some f) → env.resolve f = some loc →
      acepta f loc = true → env.dentro loc = true) ↔ env.seguro acepta path = true := by
  unfold resolveSandboxed seguro
  dsimp only
  cases hreal : env.realpath (parentOf (env.fileOf path)) with
  | none => simp
  | some r =>
    obtain ⟨d, k⟩ := r
    obtain ⟨hwalk, -⟩ := Option.filter_eq_some_iff.mp hreal
    cases hstarts : env.startsInside d with
    | false => simp [hstarts]
    | true =>
      have hultimo := env.ultimoSeguro_iff (acepta (env.fileOf path)) d k (env.fileOf path)
      simp only [hstarts, if_true, Except.ok.injEq, Option.some.injEq, Bool.not_true,
        Bool.false_or, hultimo]
      constructor
      · intro h r hr hacepta
        apply h _ r.1 rfl ?_ hacepta
        rw [resolve_eq, hwalk, Option.bind_some, hr, Option.map_some]
      · rintro h f loc rfl hloc hacepta
        rw [resolve_eq, hwalk, Option.bind_some] at hloc
        obtain ⟨r, hr, rfl⟩ := Option.map_eq_some_iff.mp hloc
        exact h r hr hacepta

def accesos (r : Resultado) : List Acceso :=
  match r with
  | .ok (as, _) => as
  | .error _ => []

def TodosDentro (as : List Acceso) : Prop := ∀ a ∈ as, env.dentro a.loc = true

theorem todosDentro_nil : env.TodosDentro [] := by
  intro a ha
  cases ha

theorem todosDentro_singleton (a : Acceso) : env.TodosDentro [a] ↔ env.dentro a.loc = true := by
  simp [TodosDentro]

/-- A tool that touches what `acepta` holds of, where its path leads, and nothing else. -/
def Toca (acepta : Path → Loc → Bool) (usar : Path → Resultado) : Prop :=
  ∀ f, env.TodosDentro (accesos (usar f)) ↔
    ∀ loc, env.resolve f = some loc → acepta f loc = true → env.dentro loc = true

theorem conRuta_iff {acepta : Path → Loc → Bool} {usar : Path → Resultado}
    (h : env.Toca acepta usar) (args : Args) (default fuera : String) :
    env.TodosDentro (accesos (env.conRuta args default fuera usar)) ↔
      ∀ path, argString args "path" default = .ok path →
        env.seguro acepta path.toList = true := by
  unfold conRuta
  cases argString args "path" default with
  | error e => exact iff_of_true env.todosDentro_nil (by simp)
  | ok path =>
    have hiff := env.resolveSandboxed_iff acepta path.toList
    simp only [Except.ok.injEq, forall_eq', ← hiff]
    cases env.resolveSandboxed path.toList with
    | error e => exact iff_of_true env.todosDentro_nil (by simp)
    | ok f =>
      cases f with
      | none => exact iff_of_true env.todosDentro_nil (by simp)
      | some f =>
        refine (h f).trans ?_
        constructor
        · rintro hf g loc hg
          obtain rfl : f = g := by simpa using hg
          exact hf loc
        · intro hf loc
          exact hf f loc rfl

theorem toca_readAt : env.Toca (fun _ loc => env.arbol.isFile loc) env.readAt := by
  intro f
  unfold readAt
  cases env.resolve f with
  | none => exact iff_of_true env.todosDentro_nil (by simp)
  | some loc =>
    have hfile : env.arbol.isFile loc = true ↔
        ∃ content, env.arbol.lookup loc = some (.file content) := by
      unfold PosixTree.Tree.isFile
      split <;> simp_all
    simp only [Option.some.injEq, forall_eq', hfile]
    split
    · rename_i content hlookup
      simp [accesos, todosDentro_singleton, Acceso.loc, hlookup]
    · rename_i hnot
      exact iff_of_true env.todosDentro_nil fun ⟨content, h⟩ => absurd h (hnot content)

theorem toca_listAt : env.Toca (fun _ loc => env.arbol.isDir loc) env.listAt := by
  intro f
  unfold listAt
  cases env.resolve f with
  | none => exact iff_of_true env.todosDentro_nil (by simp)
  | some loc =>
    simp only [Option.some.injEq, forall_eq']
    cases env.arbol.isDir loc with
    | false => exact iff_of_true env.todosDentro_nil (by simp)
    | true => simp [accesos, todosDentro_singleton, Acceso.loc]

theorem toca_writeAt (content : String) : env.Toca (env.acepta "write_file")
    (env.writeAt (.ok content)) := by
  intro f
  simp only [writeAt, acepta]
  cases env.isDirPath (parentOf f) with
  | false => exact iff_of_true env.todosDentro_nil (by simp)
  | true =>
    cases env.resolve f with
    | none => exact iff_of_true env.todosDentro_nil (by simp)
    | some loc =>
      simp only [Option.some.injEq, forall_eq', if_true, Bool.true_and]
      split
      · rename_i h
        simp [accesos, todosDentro_singleton, Acceso.loc, h]
      · rename_i h
        exact iff_of_true env.todosDentro_nil fun h' => absurd h' h

theorem accesos_writeAt_error (e : Excepcion) (f : Path) :
    accesos (env.writeAt (.error e) f) = [] := by
  unfold writeAt
  split <;> rfl

theorem accesos_conRuta_nil {usar : Path → Resultado} (h : ∀ f, accesos (usar f) = [])
    (args : Args) (default fuera : String) :
    accesos (env.conRuta args default fuera usar) = [] := by
  unfold conRuta
  split
  · rfl
  · split
    · rfl
    · rfl
    · exact h _

theorem executeTool_fst (name : String) (args : Args) :
    (env.executeTool name args).1 = accesos (env.ejecutar name args) := by
  unfold executeTool
  split <;> simp_all [accesos]

theorem rutaPedida_argString {args : Args} {default : String} (acepta : Path → Loc → Bool) :
    (∀ path, argString args "path" default = .ok path →
        env.seguro acepta path.toList = true) ↔
      ∀ path, ((argString args "path" default).toOption).map String.toList = some path →
        env.seguro acepta path = true := by
  cases argString args "path" default <;> simp [Except.toOption]

theorem executeTool_iff (name : String) (args : Args) :
    env.TodosDentro (env.executeTool name args).1 ↔
      ∀ path, rutaPedida name args = some path → env.seguro (env.acepta name) path = true := by
  rw [executeTool_fst]
  unfold ejecutar
  split
  · exact (env.conRuta_iff env.toca_readAt args _ _).trans (env.rutaPedida_argString _)
  · exact (env.conRuta_iff env.toca_readAt args _ _).trans (env.rutaPedida_argString _)
  · simp only [rutaPedida, writeFile]
    cases argString args "content" "" with
    | error e =>
      rw [env.accesos_conRuta_nil (env.accesos_writeAt_error e)]
      exact iff_of_true env.todosDentro_nil (by simp)
    | ok content =>
      exact (env.conRuta_iff (env.toca_writeAt content) args _ _).trans
        (env.rutaPedida_argString _)
  · exact (env.conRuta_iff env.toca_listAt args _ _).trans (env.rutaPedida_argString _)
  all_goals exact iff_of_true env.todosDentro_nil (by simp_all [rutaPedida])

/-- A path that passed leads inside, and a call touches only what is inside, exactly when
the path is safe. -/
theorem sandbox_iff :
    (∀ path, (∀ f loc, env.resolveSandboxed path = .ok (some f) → env.resolve f = some loc →
        env.dentro loc = true) ↔ env.seguro (fun _ _ => true) path = true) ∧
      ∀ name args, env.TodosDentro (env.executeTool name args).1 ↔
        ∀ path, rutaPedida name args = some path →
          env.seguro (env.acepta name) path = true := by
  refine ⟨fun path => ?_, env.executeTool_iff⟩
  rw [← resolveSandboxed_iff]
  simp only [true_implies]

end Entorno

/-- An app's folders, with its preferences beside its documents. -/
def telefono : Entorno where
  arbol := {
    entries := [([], .dir), (["data".toList], .dir),
      (["data".toList, "app_flutter".toList], .dir), (["data".toList, "files".toList], .dir),
      (["data".toList, "shared_prefs".toList], .dir),
      (["data".toList, "shared_prefs".toList, "claves.xml".toList], .file "secreto")]
    cwd := []
    root_dir := rfl
    cwd_dir := rfl
    parent_dir := by decide
    names := by decide
    unique := by decide }
  docs := "/data/app_flutter".toList
  sup := "/data/files".toList
  maxLinks := 40
  describir := fun _ => ""
  webFetch := fun _ => ""

theorem telefono_listDir_dotdot :
    ¬ ∀ env : Entorno, (∀ path f loc, env.resolveSandboxed path = .ok (some f) →
        env.resolve f = some loc → env.dentro loc = true) ∧
      ∀ name args, env.TodosDentro (env.executeTool name args).1 := by
  intro h
  have hlist := (h telefono).2 "list_dir" [("path", .str "..")] (.listar ["data".toList])
    (by decide)
  exact absurd hlist (by decide)

end Nerea.Agents
