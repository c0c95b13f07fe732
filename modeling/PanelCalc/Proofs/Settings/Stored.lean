import PanelCalc.Proofs.Outcome
import PanelCalc.Proofs.Settings.Documents
import PanelCalc.Settings.Saved

/-!
# Loading what has been saved

A file that has been written is found again under its path, `FileTree.target_write`, and settings
are read as they were written, `Settings.ofJson_toJson`. What is saved can therefore be loaded:
`Settings.load_save`. Where that is without a path of the user's own follows from what is asked of a
package for directories, `Directories.Conforms`.
-/

namespace PanelCalc

namespace Directories

/-- Whether the environment names a directory for settings that can be taken: one from the root. -/
def Names (configHome : Option String) (directory : String) : Prop :=
  configHome = some directory ∧ directory.toList.head? = some '/'

/-- What is asked of a package for directories. Where the environment names neither a directory for
settings nor a home, nothing is asked of it. -/
structure Conforms [Directories] : Prop where
  named : ∀ {configHome : Option String} {directory : String}, Names configHome directory →
    ∀ home, config? home configHome = some directory
  unnamed : ∀ {configHome : Option String}, (∀ directory, ¬ Names configHome directory) →
    ∀ home, home ≠ "" → config? (some home) configHome = some (joinPath home ".config")

theorem bundled_conforms : Conforms where
  named := by
    rintro _ directory ⟨rfl, fromRoot⟩ home
    simp [config?, Option.filter, fromRoot]
  unnamed := by
    intro configHome unnamed home nonempty
    have none : (configHome.filter fun path => path.toList.head? = some '/') = none := by
      rw [Option.filter_eq_none_iff]
      intro path given
      simpa [Names, given] using unnamed path
    simp [config?, none, nonempty]

end Directories

namespace FileTree

/-- The place at which a path ends, if something is or can be there. -/
def Target.place? : Target → Option Place
  | .file place _ | .vacant place => some place
  | .directory | .missing | .blocked => none

theorem lookup_filter_of_ne {place other : Place} (differ : other ≠ place)
    (entries : List (Place × Entry)) :
    (entries.filter fun item => item.1 ≠ place).lookup other = entries.lookup other := by
  induction entries with
  | nil => rfl
  | cons item later recurse =>
      obtain ⟨key, entry⟩ := item
      by_cases same : key = place
      · subst same
        simpa [List.lookup_cons, beq_false_of_ne differ] using recurse
      · rw [List.filter_cons_of_pos (by simpa using same)]
        simp only [List.lookup_cons, recurse]

/-- Every other place is as it was before something was put at one. -/
theorem entry_put_of_ne (tree : FileTree) {place other : Place} (differ : other ≠ place)
    (entry : Entry) : entry? (tree.put place entry) other = tree.entry? other := by
  unfold entry? put
  split
  · rfl
  · rw [List.lookup_cons, beq_false_of_ne differ]
    exact lookup_filter_of_ne differ tree.entries

theorem entry_put_self (tree : FileTree) {place : Place} (inside : place ≠ []) (entry : Entry) :
    entry? (tree.put place entry) place = some entry := by
  simp [put, entry?, inside]

/-- Where names end, no directory stands. -/
theorem entry_of_follow {tree : FileTree} {here place : Place} {names : List String}
    (ends : (tree.follow here names).place? = some place) :
    place ≠ [] ∧ tree.entry? place ≠ some .directory := by
  induction names generalizing here with
  | nil => cases ends
  | cons name others recurse =>
      simp only [follow] at ends
      split at ends
      · exact recurse ends
      split at ends
      · exact recurse ends
      split at ends
      · cases ends
      split at ends
      · exact recurse ends
      · rename_i content found
        split at ends
        · cases ends
          exact ⟨by simp, by simp [found]⟩
        · cases ends
      · rename_i absent
        split at ends
        · cases ends
          exact ⟨by simp, by simp [absent]⟩
        · cases ends

/-- A file put where names end is found by them: they lead through other places. -/
theorem follow_put {tree : FileTree} {here place : Place} {names : List String}
    (ends : (tree.follow here names).place? = some place) (content : List UInt8) :
    (tree.put place (.file content)).follow here names = .file place content := by
  obtain ⟨inside, noDirectory⟩ := entry_of_follow ends
  induction names generalizing here with
  | nil => cases ends
  | cons name others recurse =>
      simp only [follow] at ends ⊢
      by_cases isHere : isHere name = true
      · rw [if_pos isHere] at ends ⊢
        exact recurse ends
      rw [if_neg isHere] at ends ⊢
      by_cases up : name = ".."
      · rw [if_pos up] at ends ⊢
        exact recurse ends
      rw [if_neg up] at ends ⊢
      by_cases long : longestName < name.utf8ByteSize
      · rw [if_pos long] at ends
        cases ends
      rw [if_neg long] at ends ⊢
      -- A name on the way leads through a directory, and none stands at the place.
      by_cases last : here ++ [name] = place
      · subst last
        rw [entry_put_self tree inside]
        split at ends
        · rename_i found
          exact absurd found noDirectory
        · split at ends
          · rename_i noMore
            rw [if_pos noMore]
          · cases ends
        · split at ends
          · rename_i noMore
            rw [if_pos noMore]
          · cases ends
      · rw [entry_put_of_ne tree last]
        split at ends
        · exact recurse ends
        · split at ends
          · cases ends
            exact absurd rfl last
          · cases ends
        · split at ends
          · cases ends
            exact absurd rfl last
          · cases ends

/-- What has been written is found under its path. -/
theorem target_write {tree written : FileTree} {path : String} {content : List UInt8}
    (done : tree.write path content = (true, written)) :
    ∃ place, written.target path = .file place content := by
  have ends : ∃ place, (tree.target path).place? = some place ∧
      written = tree.put place (.file content) := by
    unfold write at done
    split at done
    · rename_i place old found
      cases done
      exact ⟨place, by rw [found]; rfl, rfl⟩
    · rename_i place found
      cases done
      exact ⟨place, by rw [found]; rfl, rfl⟩
    all_goals cases done
  obtain ⟨place, found, rfl⟩ := ends
  unfold target at found ⊢
  split at found
  · rename_i usable
    rw [if_pos usable]
    exact ⟨place, follow_put found content⟩
  · cases found

/-- Whether a file can be written does not depend on what is written to it. -/
theorem fst_write (tree : FileTree) (path : String) (first second : List UInt8) :
    (tree.write path first).1 = (tree.write path second).1 := by
  unfold write
  cases tree.target path <;> rfl

end FileTree

namespace Settings

section

variable [Json.Package] {tree saved : FileTree} {path : String}

/-- Whether settings can be saved at a path, whatever they are. -/
def Writable (tree : FileTree) (path : String) : Prop :=
  ∀ settings, (save tree path settings).1 = .ok ()

theorem writable_iff : Writable tree path ↔ (save tree path {}).1 = .ok () := by
  constructor
  · intro writable
    exact writable {}
  · intro usual settings
    rw [← usual]
    simp only [save]
    split
    · rw [FileTree.fst_write _ path _ (Text.encode (toJson {}))]
      split <;> rfl
    · rfl

/-- What has been saved is loaded again. -/
theorem load_save (conforms : Json.Package.Conforms) {settings : Settings}
    (done : save tree path settings = (.ok (), saved)) : load saved path = .ok settings := by
  simp only [save] at done
  split at done
  · split at done
    · rename_i writes
      cases done
      obtain ⟨place, found⟩ := FileTree.target_write (Prod.ext writes rfl)
      rw [load, found]
      simp only [ofBytes, Text.decode?_encode, ofJson_toJson conforms]
    · cases done
  · cases done

end

/-! ## Where settings are kept -/

section

variable [Directories] {home directory : String} {configHome : Option String}

theorem usualPath_of_config {home : Option String}
    (found : Directories.config? home configHome = some directory) :
    usualPath home configHome = .ok (joinPath (joinPath directory "doublecal") "settings.json") := by
  rw [usualPath, found]

/-- Whoever has a home has a place for settings: the directory that the environment names for them,
or else one below the home. -/
theorem usualPath_of_home (conforms : Directories.Conforms) (nonempty : home ≠ "") :
    ∃ directory,
      (Directories.Names configHome directory ∨
        (∀ other, ¬ Directories.Names configHome other) ∧ directory = joinPath home ".config") ∧
      usualPath (some home) configHome =
        .ok (joinPath (joinPath directory "doublecal") "settings.json") := by
  by_cases named : ∃ directory, Directories.Names configHome directory
  · obtain ⟨directory, named⟩ := named
    exact ⟨directory, .inl named, usualPath_of_config (conforms.named named _)⟩
  · rw [not_exists] at named
    exact ⟨_, .inr ⟨named, rfl⟩, usualPath_of_config (conforms.unnamed named home nonempty)⟩

end

end Settings
end PanelCalc
