import GrpcStubs.Path.Type
import Mathlib.Data.List.Basic

set_option autoImplicit false

namespace GrpcStubs.Message

/-- The names of the messages around a message, outermost first. -/
def enclosing : Message → List String
  | outermost _ _ => []
  | nested parent _ _ => parent.enclosing ++ [parent.name]

def levels : Message → List (String × String)
  | outermost name file => [(name, file)]
  | nested parent name file => parent.levels ++ [(name, file)]

/-- The names on the way to a message, those around it in snake case, and all of them escaped. -/
def writtenNames (message : Message) : List String :=
  (message.enclosing.map Identifier.snakeCase ++ [message.name]).map Identifier.escape

theorem reverse_around (message : Message) :
    (message.around.map name).reverse = message.enclosing := by
  induction message with
  | outermost => rfl
  | nested parent _ _ ih => rw [around, enclosing, List.map_cons, List.reverse_cons, ih]

theorem localSegments_eq (message : Message) : message.localSegments = message.writtenNames := by
  rw [localSegments, writtenNames, ← message.reverse_around]
  simp

theorem writtenNames_ne_nil (message : Message) : message.writtenNames ≠ [] := by
  simp [writtenNames]

theorem forall_mem_writtenNames {message : Message} {p q : String → Prop}
    (h : ∀ name ∈ message.name :: message.enclosing, p name)
    (hsnake : ∀ name, p name → p (Identifier.snakeCase name))
    (hescape : ∀ name, p name → q (Identifier.escape name)) :
    ∀ written ∈ message.writtenNames, q written := by
  obtain ⟨hname, henclosing⟩ := List.forall_mem_cons.mp h
  rw [writtenNames, List.forall_mem_map]
  refine List.forall_mem_append.mpr ⟨List.forall_mem_map.mpr fun name hn => ?_, ?_⟩
  · exact hescape _ (hsnake name (henclosing name hn))
  · exact List.forall_mem_singleton.mpr (hescape _ hname)

theorem levels_ne_nil (message : Message) : message.levels ≠ [] := by
  cases message <;> simp [levels]

theorem mem_levels (message : Message) : (message.name, message.file) ∈ message.levels := by
  cases message <;> simp [levels, name, file]

theorem levels_injective : Function.Injective levels := by
  intro message other h
  induction message generalizing other with
  | outermost name file =>
    cases other with
    | outermost => simpa [levels] using h
    | nested parent => simp [levels, List.singleton_eq_append_iff, levels_ne_nil] at h
  | nested parent name file ih =>
    cases other with
    | outermost => simp [levels, List.append_eq_singleton_iff, levels_ne_nil] at h
    | nested parent' name' file' =>
      obtain ⟨hparent, hlast⟩ := List.append_inj' h rfl
      obtain ⟨rfl, rfl⟩ := Prod.mk.inj (List.singleton_inj.mp hlast)
      rw [ih hparent]

end GrpcStubs.Message
