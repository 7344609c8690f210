import Metering.Number

/-!
# Histories of aggregates

How an aggregate of one family came to be: it was made, values were added to it, aggregates with
histories of their own were merged into it, and it was reset, in any order and as often as you like.
The operations of the family build the aggregate (`History.build`); what it should have taken in can
be told from the history alone (`History.values`).
-/

namespace Metering

/-- How an aggregate came to be that was made with a configuration of type `α`. -/
inductive History (α : Type)
  | made (configuration : α) (kind : NumberKind)
  | updated (before : History α) (value : Number)
  | merged (before other : History α)
  | reset (before : History α)

namespace History

variable {α β ε : Type} {kind : NumberKind} {takes : Number → Bool} {joins : α → α → Bool}

/-- The configuration with which the aggregate was made. -/
def configuration : History α → α
  | made configuration _ => configuration
  | updated before _ => before.configuration
  | merged before _ => before.configuration
  | reset before => before.configuration

/-- The aggregate that came to be in this way. A merge that is refused leaves it as it was. -/
def build (make : α → NumberKind → β) (add : β → Number → β) (join : β → β → Except ε β)
    (clear : β → β) : History α → β
  | made configuration kind => make configuration kind
  | updated before value => add (before.build make add join clear) value
  | merged before other =>
    match join (before.build make add join clear) (other.build make add join clear) with
    | .ok joined => joined
    | .error _ => before.build make add join clear
  | reset before => clear (before.build make add join clear)

/-- Everything is of one kind of number: the aggregate, its values and what is merged into it. -/
def OfKind (kind : NumberKind) : History α → Prop
  | made _ kind' => kind' = kind
  | updated before value => before.OfKind kind ∧ value.kind = kind
  | merged before other => before.OfKind kind ∧ other.OfKind kind
  | reset before => before.OfKind kind

/-- The values since the last reset, where `takes` says which values are taken in, and `joins` which
configurations are merged. A merge brings what the other aggregate had taken in. -/
def values (takes : Number → Bool) (joins : α → α → Bool) : History α → List Number
  | made _ _ => []
  | updated before value =>
    if takes value then before.values takes joins ++ [value] else before.values takes joins
  | merged before other =>
    if joins before.configuration other.configuration then
      before.values takes joins ++ other.values takes joins
    else before.values takes joins
  | reset _ => []

section Merged

variable {make : α → NumberKind → β} {add : β → Number → β} {join : β → β → Except ε β}
  {clear : β → β} {before other : History α}

theorem build_merged_of_ok {joined : β}
    (merged : join (before.build make add join clear) (other.build make add join clear) =
      .ok joined) : (before.merged other).build make add join clear = joined := by
  rw [build, merged]

theorem build_merged_of_error {e : ε}
    (refused : join (before.build make add join clear) (other.build make add join clear) =
      .error e) :
    (before.merged other).build make add join clear = before.build make add join clear := by
  rw [build, refused]

/-- Where it depends on their configurations whether two aggregates merge, and an aggregate keeps its
configuration, a merge brings what the other aggregate had taken in, or it is refused and changes
nothing. -/
theorem merged_cases {shape : β → α}
    (answers : ∀ s t, (joins (shape s) (shape t) = true ∧ ∃ u, join s t = .ok u) ∨
      joins (shape s) (shape t) = false ∧ ∃ e, join s t = .error e)
    (kept : shape (before.build make add join clear) = before.configuration)
    (kept' : shape (other.build make add join clear) = other.configuration) :
    (∃ u, join (before.build make add join clear) (other.build make add join clear) = .ok u ∧
        (before.merged other).build make add join clear = u ∧
        (before.merged other).values takes joins =
          before.values takes joins ++ other.values takes joins) ∨
      ∃ e, join (before.build make add join clear) (other.build make add join clear) = .error e ∧
        (before.merged other).build make add join clear = before.build make add join clear ∧
        (before.merged other).values takes joins = before.values takes joins := by
  rw [values, ← kept, ← kept']
  rcases answers (before.build make add join clear) (other.build make add join clear) with
    ⟨alike, u, merged⟩ | ⟨apart, e, refused⟩
  · rw [if_pos alike]
    exact .inl ⟨u, merged, build_merged_of_ok merged, rfl⟩
  · rw [apart, if_neg Bool.false_ne_true]
    exact .inr ⟨e, refused, build_merged_of_error refused, rfl⟩

end Merged

/-- What has been taken in is of the kind and passed the choice. -/
theorem OfKind.of_mem_values {history : History α} (kinds : history.OfKind kind) {v : Number}
    (member : v ∈ history.values takes joins) : v.kind = kind ∧ takes v = true := by
  induction history with
  | made configuration kind' => cases member
  | updated before value ih =>
    rw [values] at member
    split at member
    · rename_i taken
      rcases List.mem_append.1 member with first | last
      · exact ih kinds.1 first
      · rw [List.mem_singleton.1 last]
        exact ⟨kinds.2, taken⟩
    · exact ih kinds.1 member
  | merged before other ih ih' =>
    rw [values] at member
    split at member
    · rcases List.mem_append.1 member with first | last
      · exact ih kinds.1 first
      · exact ih' kinds.2 last
    · exact ih kinds.1 member
  | reset before ih => cases member

end History

end Metering
