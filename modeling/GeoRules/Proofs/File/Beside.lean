import GeoRules.Proofs.File.Write

/-! # Files beside each other

The paths of two files in one directory are walked alike up to their last names: if one of them
leads to a place, then the other one leads to the place beside it, unless it is refused for its text
(`locate_look_beside`). So where one of the paths leads to a place for a file, all that keeps
another one from such a place is its text or a directory, and either is still there after other
files were written (`Filled.locate_eq_of_not_target`). -/

namespace GeoRules.File.FileSystem

variable {fs fs' : FileSystem} {links : ℕ} {place p : Place} {a b dir : String}
  {names : List String} {node : Option Node}

/-- A name that an entry of a directory can have. -/
structure EntryName (name : String) : Prop where
  proper : ProperName name
  short : name.utf8ByteSize ≤ maxNameSize

instance (name : String) : Decidable (EntryName name) :=
  decidable_of_iff (ProperName name ∧ name.utf8ByteSize ≤ maxNameSize)
    ⟨fun h => ⟨h.1, h.2⟩, fun h => ⟨h.1, h.2⟩⟩

/-! ### The way of both -/

/-- What comes of a name for those who look does not depend on the names behind it, if there are
any. -/
theorem step_look_behind (fs : FileSystem) (links : ℕ) (place : Place) (name : String) :
    (∃ e, ∀ names ≠ [], fs.step .look links place name names = .fail e) ∨
    ∃ links' place' new, ∀ names ≠ [],
      fs.step .look links place name names = .go links' place' (new ++ names) := by
  have hslash : ∀ names : List String, ¬ (Purpose.look = .write ∧ names = [""]) := by simp
  unfold step
  by_cases hstay : staysPut name
  · exact Or.inr ⟨links, place, [], fun names _ => if_pos hstay⟩
  by_cases hup : name = ".."
  · exact Or.inr ⟨links, place.dropLast, [], fun names _ => by
      rw [if_neg hstay, if_pos hup, List.nil_append]⟩
  by_cases hsize : maxNameSize < name.utf8ByteSize
  · exact Or.inl ⟨.nameTooLong, fun names _ => by
      rw [if_neg hstay, if_neg hup, if_neg (hslash names), if_pos hsize]⟩
  simp only [if_neg hstay, if_neg hup, if_neg (hslash _), if_neg hsize]
  unfold enter
  rcases fs.node? (place ++ [name]) with _ | ⟨bytes⟩ | _ | target
  · exact Or.inl ⟨.notFound, fun names hn => if_neg hn⟩
  · exact Or.inl ⟨.notDirectory, fun names hn => if_neg hn⟩
  · exact Or.inr ⟨links, place ++ [name], [], fun names _ => rfl⟩
  · by_cases htarget : target = ""
    · exact Or.inl ⟨.notFound, fun names hn => by simp [hn, htarget]⟩
    rcases links with _ | links
    · exact Or.inl ⟨.tooManyLinks, fun names hn => by simp [hn, htarget]⟩
    · exact Or.inr ⟨links, if isAbsolute target then [] else place, pathNames target,
        fun names hn => by simp [hn, htarget]⟩

/-- Who looks for a last name finds it in the directory. -/
theorem walk_look_last (ha : EntryName a) :
    fs.walk .look links place [a] = .ok (place ++ [a], fs.node? (place ++ [a])) := by
  have hstay : ¬ staysPut a := by simp [ha.proper.1]
  rw [walk_cons, step, if_neg hstay, if_neg ha.proper.2.1, if_neg (by simp),
    if_neg (Nat.not_lt.mpr ha.short), enter]
  rcases hnode : fs.node? (place ++ [a]) with _ | ⟨bytes⟩ | _ | target
  · simp [hnode]
  · simp [hnode]
  · simp [walk_nil, hnode]
  · simp [hnode]

/-- If one file is looked for successfully, so is one beside it. -/
theorem walk_look_beside (ha : EntryName a) (hb : EntryName b)
    (h : fs.walk .look links place (names ++ [a]) = .ok (p, node)) :
    fs.walk .look links place (names ++ [b]) =
      .ok (p.dropLast ++ [b], fs.node? (p.dropLast ++ [b])) := by
  generalize hall : names ++ [a] = all at h
  induction links, place, all using walk_rec fs .look generalizing names with
  | nil links place => simp at hall
  | cons links place first rest ih =>
    rcases names with _ | ⟨first', names⟩
    · rw [← hall, List.nil_append, walk_look_last ha] at h
      obtain ⟨rfl, -⟩ := Prod.mk.inj (Except.ok.inj h)
      rw [List.nil_append, walk_look_last hb, List.dropLast_concat]
    · rw [List.cons_append] at hall
      obtain ⟨rfl, rfl⟩ := List.cons.inj hall
      have hne : ∀ name : String, names ++ [name] ≠ [] := fun name => by simp
      rw [List.cons_append, walk_cons]
      rw [walk_cons] at h
      rcases step_look_behind fs links place first' with ⟨e, hstep⟩ | ⟨links', place', new, hstep⟩
      · rw [hstep _ (hne a)] at h
        cases h
      · rw [hstep _ (hne a)] at h
        rw [hstep _ (hne b)]
        dsimp only at h ⊢
        rw [← List.append_assoc]
        exact ih links' place' _ (hstep _ (hne a)) (List.append_assoc ..) h

/-- **If the path of one file leads to a place, then that of another one in the directory leads to
the place beside it**, unless its text is refused by all file systems. -/
theorem locate_look_beside (ha : EntryName a) (hb : EntryName b)
    (h : fs.locate .look (join dir a) = .ok (p, node)) :
    (∃ e, ∀ (fs : FileSystem) (purpose : Purpose), fs.locate purpose (join dir b) = .error e) ∨
      fs.locate .look (join dir b) = .ok (p.dropLast ++ [b], fs.node? (p.dropLast ++ [b])) := by
  rcases locate_cases (join dir b) with he | hwalk
  · exact Or.inl he
  rcases locate_cases (join dir a) with ⟨e, he⟩ | hwalk'
  · rw [he] at h
    cases h
  rw [hwalk', pathNames_join ha.proper.ne_empty ha.proper.2.2,
    isAbsolute_join ha.proper.isAbsolute_eq_false] at h
  rw [hwalk, pathNames_join hb.proper.ne_empty hb.proper.2.2,
    isAbsolute_join hb.proper.isAbsolute_eq_false]
  exact Or.inr (walk_look_beside ha hb h)

/-! ### Why a path leads to no place for a file -/

/-- The path is not that of a link. -/
def NoLink (fs : FileSystem) (path : String) : Prop :=
  ∀ p target, fs.locate .look path ≠ .ok (p, some (.link target))

/-- Where one path leads to a place for a file and another one beside it to none, the text of the
other path is refused or it is that of a directory. -/
theorem cases_of_not_target (ha : EntryName a) (hb : EntryName b) (hla : fs.NoLink (join dir a))
    (hlb : fs.NoLink (join dir b)) (ht : fs.Target (join dir a) p)
    (hn : ∀ q, ¬ fs.Target (join dir b) q) :
    (∃ e, ∀ (fs : FileSystem) (purpose : Purpose), fs.locate purpose (join dir b) = .error e) ∨
      ∃ q, fs.node? q = some .directory ∧
        ∀ purpose, fs.locate purpose (join dir b) = .ok (q, some .directory) := by
  obtain ⟨node, hlocate, -⟩ := ht
  rw [locate_join_eq_look ha.proper hla] at hlocate
  refine (locate_look_beside ha hb hlocate).imp_right fun hlook => ?_
  have hall := locate_join_eq_look hb.proper hlb
  rw [hlook] at hall
  have hwrite := hn (p.dropLast ++ [b])
  rw [Target, hall] at hwrite
  rcases hnode : fs.node? (p.dropLast ++ [b]) with _ | ⟨bytes'⟩ | _ | target
  · exact absurd ⟨none, by rw [hnode], Or.inl rfl⟩ hwrite
  · exact absurd ⟨some (.file bytes'), by rw [hnode], Or.inr ⟨bytes', rfl⟩⟩ hwrite
  · exact ⟨_, hnode, fun purpose => by rw [hall, hnode]⟩
  · exact absurd (hlook.trans (by rw [hnode])) (hlb _ target)

/-- **A path that leads to no place for a file is left as it was**, after files were written beside
it. -/
theorem Filled.locate_eq_of_not_target (h : fs.Filled fs') (ha : EntryName a) (hb : EntryName b)
    (hla : fs.NoLink (join dir a)) (hlb : fs.NoLink (join dir b)) (ht : fs.Target (join dir a) p)
    (hn : ∀ q, ¬ fs.Target (join dir b) q) (purpose : Purpose) :
    fs'.locate purpose (join dir b) = fs.locate purpose (join dir b) := by
  rcases cases_of_not_target ha hb hla hlb ht hn with ⟨e', he'⟩ | ⟨q, hnode, hq⟩
  · rw [he', he']
  · have hdirectory : ¬ TakesFile (fs.node? q) := by
      rw [hnode]
      rintro (h | ⟨bytes', h⟩) <;> cases h
    rw [h.locate_eq_ok (hq purpose), h.node?_eq hdirectory, hnode, hq]

end GeoRules.File.FileSystem
