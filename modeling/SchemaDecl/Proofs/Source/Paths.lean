import Mathlib.Logic.Relation
import SchemaDecl.Source.FileTree

/-!
# Following paths

A path leads from folder to folder, and through links, until a name cannot be looked up or none is left. Whether there
is something at it cannot be found out exactly if the path or a name on its way is too long, or a name is to be looked
up in a folder in which this is forbidden.
-/

namespace SchemaDecl.FileTree

variable {tree : FileTree} {path target : FilePath} {place reached folder : List String} {name : String}
  {fault : PathFault}

theorem lookUp_cases (tree : FileTree) (reached : List String) (name : String) :
    (∃ fault, tree.lookUp reached name = .error fault ∧ fault.isAbsence = true) ∨
    (tree.isFolder reached = true ∧ tree.allows .search reached = false ∧
      tree.lookUp reached name = .error .denied) ∨
    (tree.isFolder reached = true ∧ tree.allows .search reached = true ∧ longestName < name.utf8ByteSize ∧
      tree.lookUp reached name = .error .nameTooLong) ∨
    (tree.isFolder reached = true ∧ tree.allows .search reached = true ∧
      tree.lookUp reached name = .ok (step reached name)) := by
  rw [lookUp]
  cases tree.isFolder reached with
  | false => cases tree.isFile reached <;> exact .inl ⟨_, rfl, rfl⟩
  | true =>
    cases tree.allows .search reached with
    | false => exact .inr (.inl ⟨rfl, rfl, rfl⟩)
    | true =>
      by_cases hlong : longestName < name.utf8ByteSize
      · exact .inr (.inr (.inl ⟨rfl, rfl, hlong, if_pos hlong⟩))
      · exact .inr (.inr (.inr ⟨rfl, rfl, if_neg hlong⟩))

theorem isFolder_of_lookUp (h : tree.lookUp reached name = .ok place) : tree.isFolder reached = true := by
  rcases lookUp_cases tree reached name with ⟨_, hfault, -⟩ | ⟨hfolder, -⟩ | ⟨hfolder, -⟩ | ⟨hfolder, -⟩
  · rw [hfault] at h
    cases h
  · exact hfolder
  · exact hfolder
  · exact hfolder

/-- How far a path has been followed: the links that may still be followed, the place that is reached, and the names
that are left. -/
structure Trek where
  links : Nat
  reached : List String
  names : List String

def Trek.of (path : FilePath) : Trek := ⟨mostLinks, start [] path, route path⟩

def Trek.result (tree : FileTree) (t : Trek) : Except PathFault (List String) := tree.follow t.links t.reached t.names

/-- A name that is looked up leads on to its place, or through the link there. -/
inductive Goes (tree : FileTree) : Trek → Trek → Prop
  | onward {links : Nat} {reached place : List String} {name : String} {names : List String} :
      tree.lookUp reached name = .ok place → tree.link? place = none →
      Goes tree ⟨links, reached, name :: names⟩ ⟨links, place, names⟩
  | through {links : Nat} {reached place : List String} {name : String} {names : List String} {target : FilePath} :
      tree.lookUp reached name = .ok place → tree.link? place = some target →
      Goes tree ⟨links + 1, reached, name :: names⟩ ⟨links, start reached target, route target ++ names⟩

/-- What a path leads to when it is followed no further. -/
inductive Ends (tree : FileTree) : Trek → Except PathFault (List String) → Prop
  | arrived {links : Nat} {place : List String} : Ends tree ⟨links, place, []⟩ (.ok place)
  | stopped {links : Nat} {reached : List String} {name : String} {names : List String} {fault : PathFault} :
      tree.lookUp reached name = .error fault → Ends tree ⟨links, reached, name :: names⟩ (.error fault)
  | tired {reached place : List String} {name : String} {names : List String} {target : FilePath} :
      tree.lookUp reached name = .ok place → tree.link? place = some target →
      Ends tree ⟨0, reached, name :: names⟩ (.error .tooManyLinks)

variable {t u : Trek} {result : Except PathFault (List String)}

theorem Goes.result_eq (h : tree.Goes t u) : t.result tree = u.result tree := by
  cases h with
  | @onward links _ _ _ _ hplace hlink =>
    cases links <;> simp only [Trek.result, follow, walk, hplace, hlink, bind, Except.bind]
  | through hplace hlink => simp only [Trek.result, follow, walk, hplace, hlink, bind, Except.bind]

theorem Ends.result_eq (h : tree.Ends t result) : t.result tree = result := by
  cases h with
  | @arrived links => cases links <;> rfl
  | @stopped links _ _ _ _ hfault => cases links <;> simp only [Trek.result, follow, walk, hfault, bind, Except.bind]
  | tired hplace hlink => simp only [Trek.result, follow, walk, hplace, hlink, bind, Except.bind]

/-- Every path comes to an end: each step looks up a name, or follows one of the links that may still be followed. -/
theorem exists_ends (tree : FileTree) : ∀ (links : Nat) (reached names : List String),
    ∃ u result, Relation.ReflTransGen tree.Goes ⟨links, reached, names⟩ u ∧ tree.Ends u result
  | _, _, [] => ⟨_, _, .refl, .arrived⟩
  | links, reached, name :: names => by
    cases hplace : tree.lookUp reached name with
    | error fault => exact ⟨_, _, .refl, .stopped hplace⟩
    | ok place =>
      cases hlink : tree.link? place with
      | none =>
        obtain ⟨u, result, hgoes, hends⟩ := exists_ends tree links place names
        exact ⟨u, result, .head (.onward hplace hlink) hgoes, hends⟩
      | some target =>
        cases links with
        | zero => exact ⟨_, _, .refl, .tired hplace hlink⟩
        | succ links =>
          obtain ⟨u, result, hgoes, hends⟩ := exists_ends tree links (start reached target) (route target ++ names)
          exact ⟨u, result, .head (.through hplace hlink) hgoes, hends⟩
termination_by links _ names => (links, names.length)

theorem result_eq_iff : t.result tree = result ↔ ∃ u, Relation.ReflTransGen tree.Goes t u ∧ tree.Ends u result := by
  have hfollowed : ∀ u, Relation.ReflTransGen tree.Goes t u → t.result tree = u.result tree := fun u hgoes => by
    induction hgoes with
    | refl => rfl
    | tail _ hstep ih => exact ih.trans hstep.result_eq
  constructor
  · rintro rfl
    obtain ⟨u, result, hgoes, hends⟩ := exists_ends tree t.links t.reached t.names
    rw [hfollowed u hgoes, hends.result_eq]
    exact ⟨u, hgoes, hends⟩
  · rintro ⟨u, hgoes, hends⟩
    exact (hfollowed u hgoes).trans hends.result_eq

theorem resolve_of_short (hnul : path.text.contains (Char.ofNat 0) = false)
    (hshort : path.text.utf8ByteSize ≤ longestPath) : tree.resolve path = (Trek.of path).result tree := by
  rw [resolve, if_neg (by simp [hnul]), if_neg (Nat.not_lt.2 hshort)]
  rfl

/-- A path is followed unless it holds the character with code 0 or is too long. -/
theorem resolve_cases (tree : FileTree) (path : FilePath) :
    tree.resolve path = .error .hasNul ∨
    (path.text.contains (Char.ofNat 0) = false ∧ longestPath < path.text.utf8ByteSize ∧
      tree.resolve path = .error .nameTooLong) ∨
    (path.text.contains (Char.ofNat 0) = false ∧ path.text.utf8ByteSize ≤ longestPath ∧
      tree.resolve path = (Trek.of path).result tree) := by
  cases hnul : path.text.contains (Char.ofNat 0) with
  | true => exact .inl (by rw [resolve, if_pos hnul])
  | false =>
    rcases Nat.lt_or_ge longestPath path.text.utf8ByteSize with hlong | hshort
    · exact .inr (.inl ⟨rfl, hlong, by rw [resolve, if_neg (by simp [hnul]), if_pos hlong]⟩)
    · exact .inr (.inr ⟨rfl, hshort, resolve_of_short hnul hshort⟩)

/-- On the way of a path that is short enough, a name is looked up in a folder. -/
def Meets (tree : FileTree) (path : FilePath) (folder : List String) (name : String) : Prop :=
  path.text.contains (Char.ofNat 0) = false ∧ path.text.utf8ByteSize ≤ longestPath ∧ tree.isFolder folder = true ∧
    ∃ links names, Relation.ReflTransGen tree.Goes (.of path) ⟨links, folder, name :: names⟩

/-- The ways in which it cannot be found out whether there is something at a path. -/
inductive Unanswered (tree : FileTree) (path : FilePath) : PathFault → Prop
  | longPath : path.text.contains (Char.ofNat 0) = false → longestPath < path.text.utf8ByteSize →
      Unanswered tree path .nameTooLong
  | longName {folder : List String} {name : String} : tree.Meets path folder name →
      tree.allows .search folder = true → longestName < name.utf8ByteSize → Unanswered tree path .nameTooLong
  | barred {folder : List String} {name : String} : tree.Meets path folder name →
      tree.allows .search folder = false → Unanswered tree path .denied

theorem Meets.resolve_eq (h : tree.Meets path folder name) (hfault : tree.lookUp folder name = .error fault) :
    tree.resolve path = .error fault := by
  obtain ⟨hnul, hshort, -, links, names, hgoes⟩ := h
  rw [resolve_of_short hnul hshort]
  exact result_eq_iff.2 ⟨_, hgoes, .stopped hfault⟩

theorem Unanswered.resolve_eq (h : tree.Unanswered path fault) :
    tree.resolve path = .error fault ∧ fault.isAbsence = false := by
  cases h with
  | longPath hnul hlong =>
    rw [resolve, if_neg (by simp [hnul]), if_pos hlong]
    exact ⟨rfl, rfl⟩
  | @longName folder name hmeets hopen hlong =>
    have hname : tree.lookUp folder name = .error .nameTooLong := by simp [lookUp, hmeets.2.2.1, hopen, hlong]
    exact ⟨hmeets.resolve_eq hname, rfl⟩
  | @barred folder name hmeets hbarred =>
    have hname : tree.lookUp folder name = .error .denied := by simp [lookUp, hmeets.2.2.1, hbarred]
    exact ⟨hmeets.resolve_eq hname, rfl⟩

theorem unanswered_of_resolve (h : tree.resolve path = .error fault) (hfault : fault.isAbsence = false) :
    tree.Unanswered path fault := by
  rcases resolve_cases tree path with hresolve | ⟨hnul, hlong, hresolve⟩ | ⟨hnul, hshort, hresolve⟩ <;>
    rw [hresolve] at h
  · cases h
    cases hfault
  · cases h
    exact .longPath hnul hlong
  · obtain ⟨u, hgoes, hends⟩ := result_eq_iff.1 h
    cases hends with
    | tired => cases hfault
    | @stopped links folder name names _ hname =>
      have hmeets (hfolder : tree.isFolder folder = true) : tree.Meets path folder name :=
        ⟨hnul, hshort, hfolder, links, names, hgoes⟩
      rcases lookUp_cases tree folder name with
        ⟨other, hother, habsent⟩ | ⟨hfolder, hbarred, hdenied⟩ | ⟨hfolder, hopen, hlong, htooLong⟩ | ⟨-, -, hfound⟩
      · rw [hname] at hother
        cases hother
        rw [habsent] at hfault
        cases hfault
      · rw [hname] at hdenied
        cases hdenied
        exact .barred (hmeets hfolder) hbarred
      · rw [hname] at htooLong
        cases htooLong
        exact .longName (hmeets hfolder) hopen hlong
      · rw [hname] at hfound
        cases hfound

theorem has_eq_error_iff : tree.has path = .error fault ↔ tree.Unanswered path fault := by
  rw [has]
  constructor
  · intro h
    split at h
    next => cases h
    next other hresolve =>
      split at h
      next => cases h
      next hother =>
        cases h
        exact unanswered_of_resolve hresolve (by simpa using hother)
  · intro h
    obtain ⟨hresolve, hfault⟩ := h.resolve_eq
    rw [hresolve]
    exact if_neg (by simp [hfault])

end SchemaDecl.FileTree
