import TwoPhase.Fragment.Directory
import TwoPhase.Proofs.IncludeCaching
import TwoPhase.Proofs.IncludeNesting

/-
Which files includes open. One is opened only for a path that leads upwards nowhere, and is named by
the directory and such a path behind it, so it stands in the directory. For an include whose path
leads upwards nothing is opened, and only a cache can answer it.
-/
namespace TwoPhase

theorem segmentsOf_slash (base below : String) :
    segmentsOf (base ++ "/" ++ below) = segmentsOf base ++ segmentsOf below := by
  have text : (base ++ "/" ++ below).toList = base.toList ++ '/' :: below.toList := by simp
  unfold segmentsOf
  rw [text, splitWhere_append (by simp), List.map_append]

theorem segmentsOf_ne_nil (path : String) : segmentsOf path ≠ [] := by
  simp [segmentsOf, splitWhere_ne_nil]

section Joined
variable {base below : String} (relative : below.toList.head? ≠ some '/') (nonempty : base ≠ "")
include relative nonempty

theorem head?_joinPath : (joinPath base below).toList.head? = base.toList.head? := by
  have first : base.toList ≠ [] := by simpa using nonempty
  unfold joinPath
  split
  · next alone => simp_all
  · split <;> simp [List.head?_append_of_ne_nil _ first]

theorem segmentsOf_joinPath : ∃ front, segmentsOf (joinPath base below) = front ++ segmentsOf below ∧
    (segmentsOf base = front ∨ segmentsOf base = front ++ [""]) := by
  unfold joinPath
  rw [if_neg (by simp [relative, nonempty])]
  split
  · next slash =>
    obtain ⟨front, ended⟩ := List.getLast?_eq_some_iff.1 slash
    have base_eq : base = String.ofList front ++ "/" := by
      apply String.toList_injective
      simpa using ended
    have own := segmentsOf_slash (String.ofList front) ""
    rw [show segmentsOf "" = [""] from rfl] at own
    refine ⟨segmentsOf (String.ofList front), ?_, .inr ?_⟩
    · rw [base_eq, segmentsOf_slash]
    · rw [base_eq]
      simpa using own
  · exact ⟨segmentsOf base, segmentsOf_slash base below, .inl rfl⟩

end Joined

theorem joinPath_ne_empty {base : String} (below : String) (nonempty : base ≠ "") :
    joinPath base below ≠ "" := by
  unfold joinPath
  split
  · next alone =>
    rcases alone with absolute | empty
    · intro same
      simp [same] at absolute
    · exact absurd empty nonempty
  · split <;> simp [nonempty]

namespace FileSystem
variable {fs : FileSystem} {place top : List String} {base below segment : String}

theorem step?_extends (stepped : fs.step? top segment = some place) (onward : segment ≠ "..") :
    top <+: place := by
  unfold step? at stepped
  split at stepped
  · rw [if_neg onward] at stepped
    split at stepped
    · cases stepped
      exact List.prefix_refl _
    · split at stepped
      · cases stepped
        exact List.prefix_append _ _
      · cases stepped
  · cases stepped

theorem walk_extends {segments : List String} (walked : segments.foldlM fs.step? top = some place)
    (onward : ".." ∉ segments) : top <+: place := by
  induction segments generalizing top with
  | nil =>
    cases walked
    exact List.prefix_refl _
  | cons segment segments ih =>
    rw [List.foldlM_cons] at walked
    obtain ⟨next, stepped, rest⟩ := Option.bind_eq_some_iff.1 walked
    have first : segment ≠ ".." := fun same => onward (same ▸ List.mem_cons_self)
    exact (step?_extends stepped first).trans
      (ih rest fun later => onward (List.mem_cons_of_mem _ later))

def base? (fs : FileSystem) (base : String) : Option (List String) :=
  if base = "" then some fs.current else fs.place? base

/-- The path leads to a place at the base or below it. -/
def Within (fs : FileSystem) (base path : String) : Prop :=
  ∃ top place, fs.base? base = some top ∧ fs.place? path = some place ∧ top <+: place

theorem exists_place_of_isFile {path : String} (found : fs.isFile path = true) :
    ∃ place, fs.place? path = some place := by
  unfold isFile find? at found
  cases reached : fs.place? path with
  | none => simp [reached] at found
  | some place => exact ⟨place, rfl⟩

theorem base?_of_place? (found : fs.place? base = some place) : fs.base? base = some place := by
  unfold base?
  split
  · next empty => simp [place?, empty] at found
  · exact found

theorem step?_empty {segments : List String} (nonempty : segments ≠ [])
    (walked : segments.foldlM fs.step? top = some place) : fs.step? top "" = some top := by
  obtain ⟨segment, rest, rfl⟩ := List.exists_cons_of_ne_nil nonempty
  rw [List.foldlM_cons] at walked
  obtain ⟨next, stepped, _⟩ := Option.bind_eq_some_iff.1 walked
  unfold step? at stepped ⊢
  split at stepped
  · rfl
  · cases stepped

theorem base?_joinPath (relative : below.toList.head? ≠ some '/') (onward : ".." ∉ segmentsOf below)
    (found : fs.base? (joinPath base below) = some place) :
    ∃ top, fs.base? base = some top ∧ top <+: place := by
  by_cases empty : base = ""
  · subst empty
    -- The path stands alone, and is walked from the current place.
    have alone : joinPath "" below = below := by simp [joinPath]
    rw [alone] at found
    refine ⟨fs.current, if_pos rfl, ?_⟩
    unfold base? at found
    split at found
    · cases found
      exact List.prefix_refl _
    · next nonempty =>
      rw [place?, if_neg nonempty, if_neg relative] at found
      exact walk_extends found onward
  · obtain ⟨front, joined, ended⟩ := segmentsOf_joinPath relative empty
    have longer := joinPath_ne_empty below empty
    rw [base?, if_neg longer, place?, if_neg longer, head?_joinPath relative empty, joined,
      List.foldlM_append] at found
    obtain ⟨top, walked, further⟩ := Option.bind_eq_some_iff.1 found
    refine ⟨top, ?_, walk_extends further onward⟩
    rw [base?, if_neg empty, place?, if_neg empty]
    -- Behind a slash at the end the base has one segment more, an empty one.
    rcases ended with same | slash
    · rw [same, walked]
    · rw [slash, List.foldlM_append, walked, Option.bind_eq_bind, Option.bind_some,
        List.foldlM_cons, step?_empty (segmentsOf_ne_nil below) further]
      rfl

end FileSystem

/-- Two dots anywhere in a path, even where they lead back again. -/
def LeadsUp (path : String) : Prop := ".." ∈ segmentsOf path

instance : DecidablePred LeadsUp := fun path => inferInstanceAs (Decidable (".." ∈ segmentsOf path))

structure LeadsDown (path : String) : Prop where
  relative : path.toList.head? ≠ some '/'
  onward : ¬ LeadsUp path

namespace FragmentDirectory
variable {directory : FragmentDirectory} {path file : String} {ctx : RequestContext}

/-- The name of a file of the directory, or of the index there. -/
def Names (directory : FragmentDirectory) (file : String) : Prop :=
  ∃ below, LeadsDown below ∧ (file = joinPath directory.root below ∨
    file = joinPath (joinPath directory.root below) indexName)

structure Holds (directory : FragmentDirectory) (file : String) : Prop where
  named : directory.Names file
  placed : directory.files.Within directory.root file

theorem head?_relative (path : String) : (relative path).toList.head? ≠ some '/' := by
  have first := List.head?_dropWhile_not (· = '/') path.toList
  unfold relative
  rw [String.toList_ofList]
  intro slash
  rw [slash] at first
  simp at first

theorem mem_segmentsOf_relative {segment : String} (nonempty : segment ≠ "") :
    segment ∈ segmentsOf (relative path) ↔ segment ∈ segmentsOf path := by
  unfold segmentsOf relative
  rw [String.toList_ofList]
  induction path.toList with
  | nil => simp
  | cons c text ih =>
    by_cases slash : c = '/'
    · rw [List.dropWhile_cons_of_pos (by simpa using slash), ih]
      simp [splitWhere, slash, nonempty]
    · rw [List.dropWhile_cons_of_neg (by simpa using slash)]

theorem leadsUp_relative : LeadsUp (relative path) ↔ LeadsUp path :=
  mem_segmentsOf_relative (by decide)

theorem fileFor?_eq_none (up : LeadsUp path) : directory.fileFor? path = none := by
  have dots : ".." ∈ segmentsOf (relative path) := leadsUp_relative.2 up
  simp [fileFor?, staysBelow, dots]

theorem fileFor?_names (found : directory.fileFor? path = some file) : directory.Names file := by
  unfold fileFor? at found
  dsimp only at found
  split at found
  · next stays =>
    refine ⟨relative path, ⟨head?_relative path, ?_⟩, ?_⟩
    · intro up
      have dots : ".." ∈ segmentsOf (relative path) := up
      simp [staysBelow, dots] at stays
    · split at found
      · cases found
        exact .inr rfl
      · cases found
        exact .inl rfl
  · cases found

theorem Names.within (named : directory.Names file) (isFile : directory.files.isFile file = true) :
    directory.files.Within directory.root file := by
  obtain ⟨place, found⟩ := FileSystem.exists_place_of_isFile isFile
  have based := FileSystem.base?_of_place? found
  obtain ⟨below, down, rfl | rfl⟩ := named
  · obtain ⟨top, start, inside⟩ := FileSystem.base?_joinPath down.relative down.onward based
    exact ⟨top, place, start, found, inside⟩
  · -- The index is below the directory it stands for, which is below the root.
    obtain ⟨middle, under, further⟩ := FileSystem.base?_joinPath (by decide) (by decide) based
    obtain ⟨top, start, inside⟩ := FileSystem.base?_joinPath down.relative down.onward under
    exact ⟨top, place, start, found, inside.trans further⟩

theorem serve_opens (directory : FragmentDirectory) (ctx : RequestContext) (opened : List String) :
    ∃ files, (directory.serve ctx opened).2 = opened ++ files ∧
      ∀ file ∈ files, directory.Holds file := by
  unfold serve
  cases found : (directory.fileFor? ctx.path).filter directory.files.isFile with
  | none => exact ⟨[], by simp⟩
  | some file =>
    obtain ⟨named, isFile⟩ := Option.filter_eq_some_iff.1 found
    have named := fileFor?_names named
    refine ⟨[file], ?_, ?_⟩
    · dsimp only
      split <;> rfl
    · intro other member
      cases List.mem_singleton.1 member
      exact ⟨named, named.within isFile⟩

theorem serve_of_leadsUp (directory : FragmentDirectory) (up : LeadsUp ctx.path)
    (opened : List String) :
    directory.serve ctx opened = (fail (.includeNotFound ctx.fullPath), opened) := by
  rw [serve, fileFor?_eq_none up]
  rfl

def behind {κ : Type} (directory : FragmentDirectory) (lookup : String → κ → Option String × κ) :
    Sources (κ × List String) where
  lookup path shared := ((lookup path shared.1).1, ((lookup path shared.1).2, shared.2))
  dispatch ctx shared :=
    ((directory.serve ctx shared.2).1, (shared.1, (directory.serve ctx shared.2).2))

/-- Sources that dispatch to the directory, with caches in front of it or without. -/
structure Serves (directory : FragmentDirectory) {σ : Type} (opened : σ → List String)
    (sources : Sources σ) : Prop where
  looked : ∀ path shared, opened (sources.lookup path shared).2 = opened shared
  answered : ∀ ctx shared,
    (sources.dispatch ctx shared).1 = (directory.serve ctx (opened shared)).1
  noted : ∀ ctx shared,
    opened (sources.dispatch ctx shared).2 = (directory.serve ctx (opened shared)).2

theorem sources_serves (directory : FragmentDirectory) : directory.Serves id directory.sources where
  looked _ _ := rfl
  answered _ _ := rfl
  noted _ _ := rfl

theorem behind_serves {κ : Type} (directory : FragmentDirectory)
    (lookup : String → κ → Option String × κ) :
    directory.Serves Prod.snd (directory.behind lookup) where
  looked _ _ := by simp only [behind]
  answered _ _ := by simp only [behind]
  noted _ _ := by simp only [behind]

end FragmentDirectory

namespace Evaluator
open Evaluation
variable {σ : Type} {evaluator : Evaluator σ} {ctx : RequestContext} {directory : FragmentDirectory}
  {opened : σ → List String}

/-- What an include ends with whose path leads upwards. -/
def refusal (evaluator : Evaluator σ) (ctx : RequestContext) (level : Nat) (path : String) : Failure :=
  if level < evaluator.maxDepth then
    (Failure.ofFault (.includeNotFound (ctx.atLocation path).fullPath)).within
      ("Failed to include " ++ path)
  else .ofFault (.includeDepthExceeded path evaluator.maxDepth)

section Served
variable (serves : directory.Serves opened evaluator.sources)
include serves

theorem fetch_opens (ctx : RequestContext) (level : Nat) (path : String) (session : Session σ) :
    ∃ files, opened ((evaluator.fetch ctx level path).run.run session).2.shared =
      opened session.shared ++ files ∧ ∀ file ∈ files, directory.Holds file := by
  have looked := serves.looked path session.shared
  rw [run_fetch]
  generalize evaluator.sources.lookup path session.shared = answer at looked ⊢
  obtain ⟨hit, shared⟩ := answer
  cases hit with
  | some cached => exact ⟨[], by simpa using looked, by simp⟩
  | none =>
    dsimp only at looked ⊢
    rw [serves.noted, ← looked]
    exact directory.serve_opens (ctx.atLocation path) (opened shared)

theorem evaluate_opens (ctx : RequestContext) (levels : Nat) (text : List Char)
    (session : Session σ) : ∃ files,
      opened ((evaluator.evaluate ctx levels text).run.run session).2.shared =
        opened session.shared ++ files ∧ ∀ file ∈ files, directory.Holds file := by
  let held (after : Session σ) : Prop := ∃ files,
    opened after.shared = opened session.shared ++ files ∧ ∀ file ∈ files, directory.Holds file
  have upheld : Relates (Upholds held) Eq (evaluator.evaluate ctx levels text)
      (evaluator.evaluate ctx levels text) := by
    apply evaluator.evaluate_upholds fun _ _ _ kept => kept
    rintro level path after ⟨files, earlier, each⟩
    obtain ⟨more, later, further⟩ := fetch_opens serves ctx level path after
    refine ⟨files ++ more, by rw [later, earlier, List.append_assoc], ?_⟩
    intro file member
    exact (List.mem_append.1 member).elim (each file) (further file)
  obtain ⟨_, _, kept⟩ := upheld session session ⟨rfl, [], by simp⟩
  exact kept

section Upwards
variable {path : List Char} (up : LeadsUp (ctx.atLocation (String.ofList path)).path)
  (level : Nat) (session : Session σ)
include up

theorem fetch_of_leadsUp :
    opened ((evaluator.fetch ctx level (String.ofList path)).run.run session).2.shared =
      opened session.shared ∧
    ((evaluator.sources.lookup (String.ofList path) session.shared).1 = none →
      ((evaluator.fetch ctx level (String.ofList path)).run.run session).1 =
        .error ((Failure.ofFault (.includeNotFound
          (ctx.atLocation (String.ofList path)).fullPath)).within
            ("Failed to include " ++ String.ofList path))) := by
  have looked := serves.looked (String.ofList path) session.shared
  rw [run_fetch]
  generalize evaluator.sources.lookup (String.ofList path) session.shared = answer at looked ⊢
  obtain ⟨hit, shared⟩ := answer
  cases hit with
  | some cached => exact ⟨looked, fun missed => by cases missed⟩
  | none =>
    have refused := directory.serve_of_leadsUp up (opened shared)
    dsimp only
    rw [serves.noted, serves.answered, refused]
    exact ⟨looked, fun _ => rfl⟩

theorem includeAt_of_leadsUp
    (missed : level < evaluator.maxDepth →
      (evaluator.sources.lookup (String.ofList path) session.shared).1 = none) :
    ∃ last, (evaluator.includeAt ctx level path).run.run session =
        (.error (evaluator.refusal ctx level (String.ofList path)), last) ∧
      opened last.shared = opened session.shared := by
  by_cases below : level < evaluator.maxDepth
  · obtain ⟨kept, missing⟩ := fetch_of_leadsUp serves up level session
    generalize fetched : (evaluator.fetch ctx level (String.ofList path)).run.run session = answer
      at kept missing
    obtain ⟨outcome, last⟩ := answer
    cases missing (missed below)
    refine ⟨last, ?_, kept⟩
    rw [includeAt, if_pos below, run_bind, fetched, refusal, if_pos below]
  · refine ⟨session, ?_, rfl⟩
    rw [run_includeAt_of_limit below, refusal, if_neg below]

end Upwards
end Served

/-- Only files in the directory are opened. An include whose path leads upwards opens none, and it
ends the run: at the limit of nesting nothing is looked for, and below the limit nothing is found,
unless a cache knows a text. -/
theorem includes_stay_below (serves : directory.Serves opened evaluator.sources)
    (ctx : RequestContext) (document : String) (session : Session σ) :
    let run := (evaluator.evaluate ctx evaluator.maxDepth document.toList).run.run session
    (∃ files, opened run.2.shared = opened session.shared ++ files ∧
      ∀ file ∈ files, directory.Holds file) ∧
    ∀ level path met, evaluator.Meets ctx 0 document.toList session level path met →
      LeadsUp (ctx.atLocation (String.ofList path)).path →
      opened ((evaluator.fetch ctx level (String.ofList path)).run.run met).2.shared =
        opened met.shared ∧
      ((level < evaluator.maxDepth →
          (evaluator.sources.lookup (String.ofList path) met.shared).1 = none) →
        run.1 = .error (evaluator.refusal ctx level (String.ofList path)) ∧
          opened run.2.shared = opened met.shared) := by
  intro run
  refine ⟨evaluate_opens serves ctx evaluator.maxDepth document.toList session, ?_⟩
  intro level path met meets up
  have kept := (fetch_of_leadsUp serves up level met).1
  refine ⟨kept, fun missed => ?_⟩
  obtain ⟨last, refused, still⟩ := includeAt_of_leadsUp serves up level met missed
  have whole : evaluator.evaluate ctx evaluator.maxDepth = _ :=
    evaluator.evaluate_eq_passes ctx (Nat.zero_le _)
  have ended : run = (.error (evaluator.refusal ctx level (String.ofList path)), last) := by
    dsimp only [run]
    rw [whole, meets.run_eq_error refused]
  rw [ended]
  exact ⟨rfl, still⟩

def fencedDirectory : FragmentDirectory where
  files.top := .directory [
    ("f", .directory [("a.html", .file (some (Directive.includeFile "/../x")))]),
    ("x", .file (some "outside"))]
  root := "f"

def fenced (maxDepth : Nat) : Evaluator (List String) where
  sources := fencedDirectory.sources
  maxDepth

theorem fenced_meets {maxDepth : Nat} (deep : 0 < maxDepth) :
    ∃ met, (fenced maxDepth).Meets { path := "/" } 0 (Directive.includeFile "/a.html").toList
      { shared := [] } 1 "/../x".toList met ∧ met.shared = ["f/a.html"] := by
  let ctx : RequestContext := { path := "/" }
  let entered : Session (List String) :=
    { visits := [.lookup 0 "/a.html", .dispatch 0 (ctx.atLocation "/a.html")], shared := ["f/a.html"] }
  have plain : ∀ {path : List Char}, '$' ∉ path → ¬ Directive.Form.SpellsReference path :=
    fun free spells => free spells.dollar_mem
  have served : fencedDirectory.serve (ctx.atLocation "/a.html") [] =
      (.ok (Directive.includeFile "/../x"), ["f/a.html"]) := by
    decide +kernel
  have fetched : ((fenced maxDepth).fetch ctx 0 "/a.html").run.run { shared := [] } =
      (.ok (Directive.includeFile "/../x"), entered) := by
    rw [run_fetch]
    dsimp only [fenced, FragmentDirectory.sources]
    rw [served]
    rfl
  exact ⟨entered, .nested (.alone (by decide) (by decide) (plain (by decide)) _) deep fetched
    (.own (.alone (by decide) (by decide) (plain (by decide)) entered)), rfl⟩

theorem fenced_escape_missing : fencedDirectory.Serves id (fenced 16).sources ∧
    ∃ met, (fenced 16).Meets { path := "/" } 0 (Directive.includeFile "/a.html").toList
        { shared := [] } 1 "/../x".toList met ∧
      LeadsUp (({ path := "/" } : RequestContext).atLocation "/../x").path ∧
      let run := ((fenced 16).evaluate { path := "/" } (fenced 16).maxDepth
        (Directive.includeFile "/a.html").toList).run.run { shared := [] }
      run.1 = .error ((Failure.ofFault (.includeNotFound "/../x")).within "Failed to include /../x") ∧
        run.2.shared = ["f/a.html"] := by
  have serves : fencedDirectory.Serves id (fenced 16).sources := fencedDirectory.sources_serves
  obtain ⟨met, meets, opened⟩ := fenced_meets (show 0 < 16 by decide)
  have up : LeadsUp (({ path := "/" } : RequestContext).atLocation "/../x").path := by decide
  have missing : (fenced 16).refusal { path := "/" } 1 "/../x" =
      (Failure.ofFault (.includeNotFound "/../x")).within "Failed to include /../x" := by
    decide +kernel
  obtain ⟨_, refused⟩ := includes_stay_below serves { path := "/" } (Directive.includeFile "/a.html")
    { shared := [] }
  have own := refused 1 _ met meets
  rw [String.ofList_toList, missing] at own
  obtain ⟨ended, still⟩ := (own up).2 fun _ => rfl
  exact ⟨serves, met, meets, up, ended, still.trans opened⟩

def fencedCaches : CacheSet := { members := [("slow", 0)] }

def fencedShelf : Shelf := fencedCaches.put "/../x" "kept" none { stores := [{}] }

def cachingFenced : Evaluator (Shelf × List String) where
  sources := fencedDirectory.behind fencedCaches.get

/-- At the limit of nesting nothing is looked for, and a cache may know a text. -/
theorem upward_include_not_always_missing :
    (∃ met, (fenced 1).Meets { path := "/" } 0 (Directive.includeFile "/a.html").toList
        { shared := [] } 1 "/../x".toList met) ∧
      LeadsUp (({ path := "/" } : RequestContext).atLocation "/../x").path ∧
      ((fenced 1).evaluateDocument { path := "/" } (Directive.includeFile "/a.html") []).1 =
        .error (.ofFault (.includeDepthExceeded "/../x" 1)) ∧
      fencedDirectory.Serves Prod.snd cachingFenced.sources ∧
      (cachingFenced.evaluateDocument { path := "/" } (Directive.includeFile "/../x")
        (fencedShelf, [])).1 = .ok "kept" := by
  obtain ⟨met, meets, _⟩ := fenced_meets (show 0 < 1 by decide)
  refine ⟨⟨met, meets⟩, by decide, ?_, fencedDirectory.behind_serves fencedCaches.get, ?_⟩
  · decide +kernel
  · decide +kernel

end Evaluator
end TwoPhase
