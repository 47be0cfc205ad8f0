import SchemaDecl.Proofs.Source.Paths

/-!
# Writing and reading files

A file that is written has the bytes that were written: all folders stay folders and all links stay links, so that its
path leads to the same place.
-/

namespace SchemaDecl.FileTree

variable {tree tree' : FileTree} {place reached reached' names : List String} {bytes : ByteArray} {path : FilePath}

/-- The file that a path leads to has these bytes. -/
def Holds (tree : FileTree) (path : FilePath) (bytes : ByteArray) : Prop :=
  ∃ place, tree.resolve path = .ok place ∧ tree.node? place = some (.file bytes)

theorem read_eq_ok_iff : tree.read path = .ok bytes ↔
    ∃ place, tree.resolve path = .ok place ∧ tree.node? place = some (.file bytes) ∧
      tree.allows .read place = true := by
  rw [read]
  cases hplace : tree.resolve path with
  | error fault => simp [bind, Except.bind]
  | ok place =>
    simp only [bind, Except.bind, Except.ok.injEq, exists_eq_left']
    split
    next hnode =>
      rw [hnode]
      cases tree.allows .read place <;> simp [pure, Except.pure, throw, throwThe, MonadExceptOf.throw]
    next hnode =>
      refine iff_of_false ?_ fun h => hnode _ h.1
      cases tree.isFolder place <;> rintro ⟨⟩

theorem write_of_resolve (hplace : tree.resolve path = .ok place) (hfree : tree.isFolder place = false)
    (hwrite : tree.mayWrite place = true) (bytes : ByteArray) : tree.write path bytes = .ok (tree.stored place bytes) := by
  rw [write, hplace]
  change (if tree.isFolder place = true then _ else if (!tree.mayWrite place) = true then _ else _) = _
  rw [hfree, hwrite]
  rfl

/-- A file is written exactly at a path that leads to a place where there is no folder, and where writing is allowed. -/
theorem resolve_of_write (h : tree.write path bytes = .ok tree') :
    ∃ place, tree.resolve path = .ok place ∧ tree.isFolder place = false ∧ tree' = tree.stored place bytes := by
  rw [write] at h
  cases hplace : tree.resolve path with
  | error fault =>
    rw [hplace] at h
    cases h
  | ok place =>
    rw [hplace] at h
    change (if tree.isFolder place = true then _ else if (!tree.mayWrite place) = true then _ else _) = _ at h
    split at h
    next => cases h
    next hfolder =>
      split at h
      next => cases h
      next =>
        cases h
        exact ⟨place, rfl, by simpa using hfolder, rfl⟩

/-- What is a folder stays one: what made it one is still there, or is at the place itself and below it. -/
theorem isFolder_stored (hfree : tree.isFolder place = false) (bytes : ByteArray)
    (h : tree.isFolder reached = true) : (tree.stored place bytes).isFolder reached = true := by
  rw [isFolder, Bool.or_eq_true] at h ⊢
  refine h.imp_right fun hany => ?_
  obtain ⟨⟨below, node⟩, hnode, hbelow⟩ := List.any_eq_true.1 hany
  rw [stored, List.any_append, Bool.or_eq_true]
  by_cases hplace : below = place
  · subst hplace
    cases node with
    | folder =>
      -- a folder at the place is against what is known of it
      have hfolder : tree.isFolder below = true := by
        rw [isFolder, Bool.or_eq_true]
        exact .inr (List.any_eq_true.2 ⟨(below, .folder), hnode, by simp⟩)
      rw [hfree] at hfolder
      cases hfolder
    | file _ | link _ => exact .inr (by rw [List.any_cons, hbelow]; rfl)
  · exact .inl (List.any_eq_true.2 ⟨(below, node), List.mem_filter.2 ⟨hnode, by simpa using hplace⟩, hbelow⟩)

theorem node?_stored (tree : FileTree) (place : List String) (bytes : ByteArray) :
    (tree.stored place bytes).node? place = some (.file bytes) := by
  have hnone : (tree.nodes.filter fun entry => entry.1 ≠ place).find? (fun entry => entry.1 = place) = none := by
    rw [List.find?_eq_none]
    intro entry hentry
    simpa using (List.mem_filter.1 hentry).2
  rw [node?, stored, List.find?_append, hnone, Option.none_or, List.find?_cons_of_pos (by simp), Option.map_some]

theorem node?_stored_of_ne (hne : reached ≠ place) (bytes : ByteArray) :
    (tree.stored place bytes).node? reached = tree.node? reached := by
  have hlast : [(place, FileNode.file bytes)].find? (fun entry => entry.1 = reached) = none := by
    rw [List.find?_cons_of_neg (by simpa using Ne.symm hne), List.find?_nil]
  rw [node?, stored, List.find?_append, hlast, Option.or_none, List.find?_filter, node?]
  congr 3
  funext entry
  by_cases hentry : entry.1 = reached <;> simp [hentry, hne]

theorem link?_stored (hlink : tree.link? place = none) (bytes : ByteArray) (reached : List String) :
    (tree.stored place bytes).link? reached = tree.link? reached := by
  by_cases hplace : reached = place
  · subst hplace
    rw [hlink, link?, node?_stored]
  · rw [link?, node?_stored_of_ne hplace, ← link?]

theorem lookUp_stored {name : String} (hfree : tree.isFolder place = false) (bytes : ByteArray)
    (h : tree.lookUp reached name = .ok reached') :
    (tree.stored place bytes).lookUp reached name = .ok reached' := by
  have hfolder := isFolder_of_lookUp h
  rw [lookUp, hfolder] at h
  rw [lookUp, isFolder_stored hfree bytes hfolder]
  exact h

theorem Goes.stored {t u : Trek} (hfree : tree.isFolder place = false) (hlink : tree.link? place = none)
    (bytes : ByteArray) (h : tree.Goes t u) : (tree.stored place bytes).Goes t u := by
  cases h with
  | onward hnext hfound => exact .onward (lookUp_stored hfree bytes hnext) ((link?_stored hlink bytes _).trans hfound)
  | through hnext hfound =>
    exact .through (lookUp_stored hfree bytes hnext) ((link?_stored hlink bytes _).trans hfound)

/-- Where a path leads to there is no link, unless this is the top or where the path begins. -/
theorem link?_of_goes {t u : Trek} (h : Relation.ReflTransGen tree.Goes t u) :
    u.reached = t.reached ∨ u.reached = ["/"] ∨ tree.link? u.reached = none := by
  induction h with
  | refl => exact .inl rfl
  | tail _ hstep ih =>
    cases hstep with
    | onward _ hlink => exact .inr (.inr hlink)
    | @through _ reached _ _ _ target _ _ =>
      cases habsolute : target.absolute with
      | false =>
        rw [start, habsolute]
        exact ih
      | true =>
        rw [start, habsolute]
        exact .inr (.inl rfl)

theorem goes_of_resolve (h : tree.resolve path = .ok place) :
    path.text.contains (Char.ofNat 0) = false ∧ path.text.utf8ByteSize ≤ longestPath ∧
      ∃ links, Relation.ReflTransGen tree.Goes (.of path) ⟨links, place, []⟩ := by
  rcases resolve_cases tree path with hresolve | ⟨-, -, hresolve⟩ | ⟨hnul, hshort, hresolve⟩ <;> rw [hresolve] at h
  · cases h
  · cases h
  · obtain ⟨u, hgoes, hends⟩ := result_eq_iff.1 h
    cases hends
    exact ⟨hnul, hshort, _, hgoes⟩

theorem link?_of_resolve (hplace : tree.resolve path = .ok place) (hfree : tree.isFolder place = false) :
    tree.link? place = none := by
  obtain ⟨-, -, links, hgoes⟩ := goes_of_resolve hplace
  rcases link?_of_goes hgoes with hstart | htop | hlink
  · have hstart : place = start [] path := hstart
    rw [hstart, start] at hfree
    split at hfree <;> cases hfree
  · have htop : place = ["/"] := htop
    rw [htop] at hfree
    cases hfree
  · exact hlink

theorem resolve_stored (hplace : tree.resolve path = .ok place) (hfree : tree.isFolder place = false)
    (bytes : ByteArray) : (tree.stored place bytes).resolve path = .ok place := by
  have hlink := link?_of_resolve hplace hfree
  obtain ⟨hnul, hshort, links, hgoes⟩ := goes_of_resolve hplace
  rw [resolve_of_short hnul hshort]
  exact result_eq_iff.2 ⟨_, hgoes.lift id fun _ _ hstep => hstep.stored hfree hlink bytes, .arrived⟩

theorem has_stored (hplace : tree.resolve path = .ok place) (hfree : tree.isFolder place = false)
    (bytes : ByteArray) : (tree.stored place bytes).has path = .ok true := by
  rw [has, resolve_stored hplace hfree]
  simp only [isFile, node?_stored, Bool.or_true]

theorem read_stored (hplace : tree.resolve path = .ok place) (hfree : tree.isFolder place = false)
    (hread : tree.allows .read place = true) (bytes : ByteArray) :
    (tree.stored place bytes).read path = .ok bytes :=
  read_eq_ok_iff.2 ⟨place, resolve_stored hplace hfree bytes, node?_stored tree place bytes, hread⟩

theorem holds_write (h : tree.write path bytes = .ok tree') : tree'.Holds path bytes := by
  obtain ⟨place, hplace, hfree, rfl⟩ := resolve_of_write h
  exact ⟨place, resolve_stored hplace hfree bytes, node?_stored tree place bytes⟩

end SchemaDecl.FileTree
