import CodeIndex.Proofs.Settings.Precedence

/-!
# Checking settings twice

What passes a check is written as a value that the same check takes, and takes as it is.  So the second
check of what is loaded does nothing.  Two checks rewrite what they are given, and both have their own
results as fixed points: an extension gets no second dot, and the path of a log file is not expanded again,
since only a path that is not absolute can start at a home directory.
-/

namespace CodeIndex.Settings

open Validation Checked

variable {homes : Homes}

theorem isSound_of_ofValue (hhome : homes.own.IsSpelled) {v : Value} {s : Settings}
    (h : ofValue homes v = .ok s) : s.IsSound := by
  cases v with
  | map m => exact isSound_of_ofMembers hhome h
  | _ => cases h

theorem dotted_dotted (extension : String) : dotted (dotted extension) = dotted extension :=
  dotted_of_startsWith (startsWith_dotted extension)

/-- Settings that pass, the home directory being one that can be spelled, are written as a value that
passes in whatever home directory and gives the same settings.  So what loads from sources is just what
passes of all that they say.  The rewriting of extensions and of destinations leaves its own results as
they are. -/
theorem check_idempotent (hhome : homes.own.IsSpelled) :
    (∀ v s, ofValue homes v = .ok s → ∀ homes', ofValue homes' s.toValue = .ok s) ∧
    (∀ m s, ofSections homes m = .ok s → recheck homes s = .ok s) ∧
    (∀ sources : Sources, sources.home = homes → ∀ s,
      load sources = .ok s ↔ sources.IsReadable ∧ ofSections homes sources.all = .ok s) ∧
    (∀ extension, dotted (dotted extension) = dotted extension) ∧
    ∀ s t, destination homes (.text s) = .ok t → ∀ homes', destination homes' (.text t) = .ok t := by
  refine ⟨?_, fun m s => recheck_of_ofSections hhome, ?_, dotted_dotted, ?_⟩
  · intro v s h homes'
    -- Nothing that passes depends on the home directory any more.
    exact ofValue_toValue (isSound_of_ofValue hhome h)
  · rintro sources rfl s
    exact load_eq_ok_iff_ofSections hhome
  · intro s t h homes'
    exact destination_text (isDestination_of_destination hhome h)

/-- A log file below the own home directory, and an extension without its dot. -/
def shortSettings : Value :=
  .map [("logging", .map [("outputs", .list [.map [("destination", .text "~/x.log")]])]),
    ("index", .map [("source_extensions", .list [.text "ex", .text ".exs"])])]

theorem check_idempotent_shortSettings :
    ∃ s, ofValue { own := Path.ofString "/home/me" } shortSettings = .ok s ∧
      s.logging.outputs.map (·.destination) = ["/home/me/x.log"] ∧
      s.index.sourceExtensions = [".ex", ".exs"] ∧
      ofValue { own := Path.ofString "/home/you" } s.toValue = .ok s := by
  let homes : Homes := { own := Path.ofString "/home/me" }
  have hhome : homes.own.IsSpelled := Path.isSpelled_ofString "/home/me"
  have hpasses : ∃ s, ofValue { own := Path.ofString "/home/me" } shortSettings = .ok s ∧
      s.logging.outputs.map (·.destination) = ["/home/me/x.log"] ∧
      s.index.sourceExtensions = [".ex", ".exs"] :=
    ⟨_, rfl, by decide +kernel, by decide +kernel⟩
  obtain ⟨s, hs, hdestinations, hextensions⟩ := hpasses
  exact ⟨s, hs, hdestinations, hextensions, (check_idempotent hhome).1 _ s hs _⟩

end CodeIndex.Settings
