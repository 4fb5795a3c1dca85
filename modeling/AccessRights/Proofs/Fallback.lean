import AccessRights.Proofs.LabelAnswers
import AccessRights.Proofs.WellFormed

/-!
# Falling back to the object

A file decides a question of access by an entitlement of its own, and where it has none the
object decides.  Two laws say what this comes to.

`View.isLocationRestricted_iff_of_evaluate`: whether places restrict a file is asked by
looking at both scopes, and whether something is granted at a place by falling back
from the one to the other.  A file with places of its own hides those of the object, so
that the two could part if a file set places and granted nothing at any of them.  No file
does (`Entitlements.FitsFile`), and so they never part.

`Document.fileRight_of_deniesFile`: an express denial is not an entitlement.  A file
whose block denies reading and grants it to nobody has no field of its own, and every
question about it is left to the object.  So the denial withholds the file exactly where
the object gives nothing away either, and otherwise the file is open to whom the object is
open to.
-/

namespace AccessRights

/-! ## Places -/

/-- Places are answered about only where some are set, and then about every place. -/
theorem Entitlements.answer?_location (entitlements : Entitlements) (place : String) :
    entitlements.answer? (.location place) =
      entitlements.location.map fun locations => (locations.get? place).getD .denied := rfl

/-- A scope that grants throughout names a place exactly if it grants something at one. -/
theorem Entitlements.hasLocations_iff_granted {entitlements : Entitlements}
    (hgranted : ∀ locations, entitlements.location = some locations →
      ∀ name right, locations.get? name = some right → right.granted = true) :
    entitlements.hasLocations = true ↔
      ∃ place, ((entitlements.answer? (.location place)).getD .denied).granted = true := by
  simp only [hasLocations, answer?_location]
  cases hset : entitlements.location with
  | none =>
    refine iff_of_false Bool.false_ne_true ?_
    rintro ⟨place, hplace⟩
    cases hplace
  | some locations =>
    rw [Option.any_some, Bool.not_eq_true', NameMap.isEmpty_eq_false_iff]
    refine exists_congr fun place => ?_
    rw [Option.map_some, Option.getD_some]
    cases hright : locations.get? place with
    | none => exact iff_of_false nofun Bool.false_ne_true
    | some right => exact iff_of_true ⟨right, rfl⟩ (hgranted locations hset place right hright)

namespace Evaluation.WellFormed

variable {evaluation : Evaluation}

/-- **Places restrict the object exactly if one of them may read it.** -/
theorem isLocationRestricted_iff_granted (h : evaluation.WellFormed) :
    evaluation.isLocationRestricted = true ↔
      ∃ place, (evaluation.objectRight (.location place)).granted = true :=
  Entitlements.hasLocations_iff_granted h.object.location_granted

/-- **And a file, exactly if one of them may read the file.** -/
theorem isLocationRestrictedFor_iff_granted (h : evaluation.WellFormed) (file : String) :
    evaluation.isLocationRestrictedFor file = true ↔
      ∃ place, (evaluation.fileRight file (.location place)).granted = true := by
  unfold Evaluation.isLocationRestrictedFor Evaluation.fileRight
  cases hfile : evaluation.files.get? file with
  | none => exact h.isLocationRestricted_iff_granted
  | some entitlements =>
    have hfits := h.files file entitlements hfile
    have hplaces := Entitlements.hasLocations_iff_granted fun locations hset name right hright =>
      hfits.granted right (.location hset hright)
    show (entitlements.hasLocations || _) = true ↔
      ∃ place, ((entitlements.answer? (.location place)).getD _).granted = true
    cases hset : entitlements.location with
    | none =>
      -- A file without places of its own is asked about as the object is.
      have hnone : entitlements.hasLocations = false := by
        rw [Entitlements.hasLocations, hset]
        rfl
      simp only [hnone, Bool.false_or, Entitlements.answer?_location, hset, Option.map_none,
        Option.getD_none]
      exact h.isLocationRestricted_iff_granted
    | some locations =>
      -- Places of its own are never empty, and the object is not asked.
      have hnames : entitlements.hasLocations = true := by
        rw [Entitlements.hasLocations, hset, Option.any_some,
          hfits.location_nonempty locations hset]
        rfl
      simp only [hnames, Bool.true_or, true_iff, Entitlements.answer?_location, hset,
        Option.map_some, Option.getD_some] at hplaces ⊢
      exact hplaces

end Evaluation.WellFormed

/-- **Places restrict a file, or the object, exactly if something is granted at one.** -/
theorem View.isLocationRestricted_iff_of_evaluate {ν : Type} {view : View ν} {options : Options}
    {now : Calendar.Instant} {evaluation : Evaluation}
    (h : view.evaluate options now = .ok evaluation) :
    (∀ file, evaluation.isLocationRestrictedFor file = true ↔
      ∃ place, (evaluation.fileRight file (.location place)).granted = true) ∧
    (evaluation.isLocationRestricted = true ↔
      ∃ place, (evaluation.objectRight (.location place)).granted = true) := by
  have hwell : evaluation.WellFormed := wellFormed_of_evaluate h
  exact ⟨hwell.isLocationRestrictedFor_iff_granted, hwell.isLocationRestricted_iff_granted⟩

/-- Open in a hall, with one file that is open at a desk and another one under a rule. -/
def Document.hallAndDesk : Document :=
  ⟨.element "rightsMetadata" []
    (.element "access" [("type", "read")]
      (.element "machine" [] (.element "location" [] (.text "hall" .nil) .nil) .nil)
    (.element "access" [("type", "read")]
      (.element "file" [] (.text "a.pdf" .nil)
        (.element "machine" [] (.element "location" [] (.text "desk" .nil) .nil) .nil))
    (.element "access" [("type", "read")]
      (.element "file" [] (.text "b.pdf" .nil)
        (.element "machine" [] (.element "world" [("rule", "vpn")] .nil .nil) .nil))
      .nil))) .nil⟩

theorem View.isLocationRestricted_iff_of_evaluate_hallAndDesk : ∃ evaluation,
    Document.hallAndDesk.view.evaluate .default ⟨0, 0⟩ = .ok evaluation ∧
      evaluation.fileRight "a.pdf" (.location "hall") = ⟨false, none⟩ ∧
      evaluation.isLocationRestrictedFor "a.pdf" = true ∧
      evaluation.isLocationRestrictedFor "b.pdf" = true ∧
      evaluation.isLocationRestricted = true := by
  have h : Document.hallAndDesk.view.evaluate .default ⟨0, 0⟩ = .ok _ := rfl
  obtain ⟨hfile, hobject⟩ := isLocationRestricted_iff_of_evaluate h
  exact ⟨_, h, rfl, (hfile "a.pdf").mpr ⟨"desk", rfl⟩, (hfile "b.pdf").mpr ⟨"hall", rfl⟩,
    hobject.mpr ⟨"hall", rfl⟩⟩

/-! ## Grants that give access -/

/-- The names of the elements that can give access. -/
def givingNames : List String :=
  [Vocabulary.world, Vocabulary.group, Vocabulary.agent, Vocabulary.location, Vocabulary.lending]

/-- The element gives access to somebody; of groups only the stanford group counts. -/
def Node.GivesAccess (node : Node) : Prop :=
  node.name ∈ givingNames ∧ (node.name = Vocabulary.group → NamesStanford node.text)

instance (node : Node) : Decidable node.GivesAccess :=
  inferInstanceAs (Decidable (_ ∧ (_ → _)))

/-- Any name but that of a group gives access by itself. -/
theorem Node.givesAccess_of_name {node : Node} {name : String} (hname : node.name = name)
    (hgives : name ∈ givingNames) (hgroup : name ≠ Vocabulary.group) : node.GivesAccess :=
  ⟨hname ▸ hgives, fun h => absurd (hname ▸ h) hgroup⟩

section Grants

variable {grants : List Node}

/-- **Grants that give no access say nothing**, whoever is asked about. -/
theorem rightAmong?_eq_none (h : ∀ grant ∈ grants, ¬ grant.GivesAccess) (audience : Audience) :
    rightAmong? grants audience = none := by
  have hnamed : ∀ name ∈ givingNames, name ≠ Vocabulary.group →
      ∀ grant ∈ grants, grant.name ≠ name := by
    intro name hgives hgroup grant hgrant hname
    exact h grant hgrant (Node.givesAccess_of_name hname hgives hgroup)
  have hfound : ∀ (p : Node → Bool) (rule? : Node → Option String),
      (∀ grant ∈ grants, p grant ≠ true) →
        ((grants.find? p).map fun grant => Right.granting (rule? grant)) = none := by
    intro p rule? hnone
    rw [List.find?_eq_none.mpr hnone]
    rfl
  have hmapped : ∀ element ∈ givingNames, element ≠ Vocabulary.group → ∀ name,
      rightOfName? element name grants = none := by
    intro element hgives hgroup name
    refine if_neg ?_
    rintro ⟨grant, hgrant, hname⟩
    exact hnamed element hgives hgroup grant hgrant hname
  cases audience with
  | world =>
    exact hfound _ _ fun grant hgrant hname =>
      hnamed Vocabulary.world (by decide) (by decide) grant hgrant (of_decide_eq_true hname)
  | stanford =>
    refine hfound _ _ fun grant hgrant hfits => ?_
    obtain ⟨hname, hstanford⟩ := of_decide_eq_true hfits
    exact h grant hgrant ⟨hname ▸ (by decide), fun _ => hstanford⟩
  | agent name => exact hmapped Vocabulary.agent (by decide) (by decide) name
  | location name => exact hmapped Vocabulary.location (by decide) (by decide) name
  | lending =>
    exact hfound _ _ fun grant hgrant hname =>
      hnamed Vocabulary.lending (by decide) (by decide) grant hgrant (of_decide_eq_true hname)

/-- Whom an element names is granted something. -/
theorem granted_rightOfName? {grant : Node} (hgrant : grant ∈ grants) :
    ((rightOfName? grant.name grant.text grants).getD .denied).granted = true := by
  have hmem : grant ∈ grants.filter fun other =>
      other.name = grant.name ∧ other.text = grant.text :=
    List.mem_filter.mpr ⟨hgrant, decide_eq_true ⟨rfl, rfl⟩⟩
  rw [rightOfName?, if_pos ⟨grant, hgrant, rfl⟩, Option.getD_some,
    List.getLast?_eq_some_getLast (List.ne_nil_of_mem hmem)]
  rfl

/-- **A grant that gives access gives it to somebody.** -/
theorem exists_granted_of_givesAccess {grant : Node} (hgrant : grant ∈ grants)
    (hgives : grant.GivesAccess) :
    ∃ audience, ((rightAmong? grants audience).getD .denied).granted = true := by
  obtain ⟨hname, hgroup⟩ := hgives
  simp only [givingNames, List.mem_cons, List.not_mem_nil, or_false] at hname
  rcases hname with hworld | hstanford | hagent | hlocation | hlending
  · exact ⟨.world, granted_of_find? _ ⟨grant, hgrant, decide_eq_true hworld⟩⟩
  · exact ⟨.stanford,
      granted_of_find? _ ⟨grant, hgrant, decide_eq_true ⟨hstanford, hgroup hstanford⟩⟩⟩
  · have hgranted := granted_rightOfName? hgrant
    rw [hagent] at hgranted
    exact ⟨.agent grant.text, hgranted⟩
  · have hgranted := granted_rightOfName? hgrant
    rw [hlocation] at hgranted
    exact ⟨.location grant.text, hgranted⟩
  · exact ⟨.lending, granted_of_find? _ ⟨grant, hgrant, decide_eq_true hlending⟩⟩

end Grants

/-! ## Denials of files -/

namespace Document

/-- The block that decides about a file denies reading expressly and holds no grant. -/
def DeniesFile (document : Document) (file : String) : Prop :=
  (∃ grant ∈ document.fileGrants file, grant.name = Vocabulary.none) ∧
    ∀ grant ∈ document.fileGrants file, grant.name ∉ givingNames

instance (document : Document) (file : String) : Decidable (document.DeniesFile file) :=
  inferInstanceAs (Decidable ((∃ grant ∈ _, _) ∧ ∀ grant ∈ _, _))

variable {document : Document} {options : Options} {now : Calendar.Instant}
  {evaluation : Evaluation}

/-- The object withholds everything exactly if none of its grants gives access. -/
theorem forall_objectRight_eq_denied_iff
    (h : document.view.evaluate options now = .ok evaluation) :
    (∀ audience, evaluation.objectRight audience = ⟨false, none⟩) ↔
      ∀ grant ∈ document.grants .read .object, ¬ grant.GivesAccess := by
  constructor
  · intro hwithheld grant hgrant hgives
    obtain ⟨audience, hgranted⟩ := exists_granted_of_givesAccess hgrant hgives
    rw [← objectRight_of_evaluate h, hwithheld] at hgranted
    cases hgranted
  · intro hnone audience
    rw [objectRight_of_evaluate h, rightAmong?_eq_none hnone]
    rfl

/-- **A denied file is what the object is**: its denial withholds it exactly if nothing
gives access to the object. -/
theorem fileRight_of_deniesFile (h : document.view.evaluate options now = .ok evaluation)
    {file : String} (hdenied : document.DeniesFile file) :
    (∀ audience, evaluation.fileRight file audience = evaluation.objectRight audience) ∧
    ((∀ audience, evaluation.fileRight file audience = ⟨false, none⟩) ↔
      ∀ grant ∈ document.grants .read .object, ¬ grant.GivesAccess) := by
  have hobject : ∀ audience,
      evaluation.fileRight file audience = evaluation.objectRight audience := by
    intro audience
    have hnone : rightAmong? (document.fileGrants file) audience = none :=
      rightAmong?_eq_none (fun grant hgrant hgives => hdenied.2 grant hgrant hgives.1) audience
    rw [Evaluation.fileRight, answer?_file_of_evaluate h, hnone, Option.getD_none]
  refine ⟨hobject, ?_⟩
  simp only [hobject]
  exact forall_objectRight_eq_denied_iff h

/-- Open to a group that does not count, with a file that was open and is denied. -/
def deniedAtLast : Document :=
  ⟨.element "rightsMetadata" []
    (.element "access" [("type", "read")]
      (.element "machine" [] (.element "group" [] (.text "Palo Alto" .nil) .nil) .nil)
    (.element "access" [("type", "read")]
      (.element "file" [] (.text "a.pdf" .nil)
        (.element "machine" [] (.element "world" [] .nil .nil) .nil))
    (.element "access" [("type", "read")]
      (.element "file" [] (.text "a.pdf" .nil)
        (.element "machine" [] (.element "none" [] .nil .nil) .nil))
      .nil))) .nil⟩

theorem fileRight_of_deniesFile_deniedAtLast : ∃ evaluation,
    deniedAtLast.view.evaluate .default ⟨0, 0⟩ = .ok evaluation ∧
      deniedAtLast.DeniesFile "a.pdf" ∧
      ∀ audience, evaluation.fileRight "a.pdf" audience = ⟨false, none⟩ := by
  have h : deniedAtLast.view.evaluate .default ⟨0, 0⟩ = .ok _ := rfl
  have hdenied : deniedAtLast.DeniesFile "a.pdf" := by decide
  obtain ⟨-, hwithheld⟩ := fileRight_of_deniesFile h hdenied
  exact ⟨_, h, hdenied, hwithheld.mpr (by decide)⟩

/-- Open to everybody, with a file that is denied. -/
def deniedInOpen : Document :=
  ⟨.element "rightsMetadata" []
    (.element "access" [("type", "read")]
      (.element "machine" []
        (.element "world" [] .nil
        (.element "group" [] (.text "Stanford" .nil)
        (.element "agent" [] (.text "app" .nil)
        (.element "location" [] (.text "hall" .nil)
        (.element "cdl" [] .nil .nil))))) .nil)
    (.element "access" [("type", "read")]
      (.element "file" [] (.text "a.pdf" .nil)
        (.element "machine" [] (.element "none" [] .nil .nil) .nil))
      .nil)) .nil⟩

/-- **A denial withholds nothing that the object gives away.** -/
theorem not_withheld_of_deniesFile : ∃ evaluation,
    deniedInOpen.view.evaluate .default ⟨0, 0⟩ = .ok evaluation ∧
      deniedInOpen.DeniesFile "a.pdf" ∧
      evaluation.fileRight "a.pdf" .world = ⟨true, none⟩ ∧
      evaluation.fileRight "a.pdf" .stanford = ⟨true, none⟩ ∧
      evaluation.fileRight "a.pdf" (.agent "app") = ⟨true, none⟩ ∧
      evaluation.fileRight "a.pdf" (.location "hall") = ⟨true, none⟩ ∧
      evaluation.fileRight "a.pdf" .lending = ⟨true, none⟩ := by
  have h : deniedInOpen.view.evaluate .default ⟨0, 0⟩ = .ok _ := rfl
  exact ⟨_, h, by decide, rfl, rfl, rfl, rfl, rfl⟩

end Document

end AccessRights
