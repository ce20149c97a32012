import AvbEntity.Proofs.Strings.Table
import Mathlib.Data.List.Nodup
import Mathlib.Data.List.Perm.Basic

namespace AvbEntity

namespace ConfigurationModel

theorem upsert_withHalves (m : ConfigurationModel) (c : Category) (index : UInt16)
    (f : c.Model → c.Model) (static : ConfigurationStatic) (dynamic : ConfigurationDynamic) :
    ({ m with static, dynamic } : ConfigurationModel).upsert c index f =
      { m.upsert c index f with static, dynamic } := by
  cases c <;> rfl

theorem upsert_comm (m : ConfigurationModel) {c d : Category} {i j : UInt16}
    (different : c = d → i ≠ j) (f : c.Model → c.Model) (g : d.Model → d.Model) :
    (m.upsert c i f).upsert d j g = (m.upsert d j g).upsert c i f := by
  apply ext_models
  · simp
  · simp
  · intro x
    by_cases category : c = d
    · subst category
      by_cases here : x = c
      · subst here
        simp only [models_upsert_self]
        exact SortedMap.upsert_comm _ (different rfl) f g
      · simp only [models_upsert_ne _ here]
    · by_cases atD : x = d
      · subst atD
        rw [models_upsert_self, models_upsert_ne _ (Ne.symm category), models_upsert_ne _ (Ne.symm category),
          models_upsert_self]
      · by_cases atC : x = c
        · subst atC
          rw [models_upsert_ne _ atD, models_upsert_self, models_upsert_self, models_upsert_ne _ atD]
        · rw [models_upsert_ne _ atD, models_upsert_ne _ atC, models_upsert_ne _ atC,
            models_upsert_ne _ atD]

end ConfigurationModel

inductive Response where
  | configuration (i : UInt16) (d : ConfigurationDescriptor)
  | descriptor (p : Place) (d : p.category.Descriptor)
  | strings (i index : UInt16) (d : StringsStatic)

inductive Response.Target where
  | configuration (i : UInt16)
  | place (p : Place)
deriving DecidableEq

namespace Response

def target : Response → Target
  | configuration i _ => .configuration i
  | descriptor p _ => .place p
  | strings i index _ => .place ⟨.strings, i, index⟩

def toOperation : Response → Operation
  | configuration i d => .setConfigurationDescriptor i d
  | descriptor p d => .setDescriptor p.category p.configuration p.index d
  | strings i index d => .setStrings i index d

def touched : Response → UInt16
  | configuration i _ => i
  | descriptor p _ => p.configuration
  | strings i _ _ => i

def describe (current : UInt16) : Response → ConfigurationModel → ConfigurationModel
  | configuration i d, m =>
    { m with
      static := d.static
      dynamic := { m.dynamic with isActive := i == current, objectName := d.objectName } }
  | descriptor .., m => m
  | strings _ index d, m => { m with dynamic := RemoteEntity.localizeEdit index d m.dynamic }

def learn : Response → ConfigurationModel → ConfigurationModel
  | configuration .., m => m
  | descriptor p d, m => m.upsert p.category p.index (p.category.learn d)
  | strings _ index d, m => m.upsert .strings index (Category.learn .strings d)

theorem describe_learn (current : UInt16) (r s : Response) (m : ConfigurationModel) :
    r.describe current (s.learn m) = s.learn (r.describe current m) := by
  cases r <;> cases s <;>
    simp only [describe, learn, ConfigurationModel.static_upsert, ConfigurationModel.dynamic_upsert,
      ConfigurationModel.upsert_withHalves]

variable {r s : Response}

theorem learn_comm (different : r.target ≠ s.target) (same : r.touched = s.touched)
    (m : ConfigurationModel) : s.learn (r.learn m) = r.learn (s.learn m) := by
  have apart : ∀ {c d : Category} {i j : UInt16}, Target.place ⟨c, r.touched, i⟩ ≠
      Target.place ⟨d, s.touched, j⟩ → c = d → i ≠ j := by
    rintro c d i j unequal rfl rfl
    rw [same] at unequal
    exact unequal rfl
  cases r with
  | configuration i d => rfl
  | descriptor p d =>
    cases s with
    | configuration j d' => rfl
    | descriptor q d' => exact m.upsert_comm (apart different) _ _
    | strings j index d' => exact m.upsert_comm (apart different) _ _
  | strings i index d =>
    cases s with
    | configuration j d' => rfl
    | descriptor q d' => exact m.upsert_comm (apart different) _ _
    | strings j other d' => exact m.upsert_comm (apart different) _ _

/-- The configuration's own answer and the table of strings are different fields, and two tables of
strings are written at different references. -/
theorem describe_comm (different : r.target ≠ s.target) (same : r.touched = s.touched)
    (current : UInt16) (m : ConfigurationModel) :
    s.describe current (r.describe current m) = r.describe current (s.describe current m) := by
  have own : ∀ (index : UInt16) (d : StringsStatic) (active : Bool) (name : String)
      (n : ConfigurationDynamic),
      RemoteEntity.localizeEdit index d { n with isActive := active, objectName := name } =
        { RemoteEntity.localizeEdit index d n with isActive := active, objectName := name } := by
    intro index d active name n
    unfold RemoteEntity.localizeEdit
    split <;> rfl
  cases r with
  | configuration i d =>
    cases s with
    | configuration j d' => exact absurd (congrArg Target.configuration same) different
    | descriptor q d' => rfl
    | strings j index d' =>
      exact congrArg (fun dynamic => { m with static := d.static, dynamic })
        (own index d' (i == current) d.objectName m.dynamic)
  | descriptor p d => rfl
  | strings i index d =>
    cases s with
    | configuration j d' =>
      exact congrArg (fun dynamic => { m with static := d'.static, dynamic })
        (own index d (j == current) d'.objectName m.dynamic).symm
    | descriptor q d' => rfl
    | strings j other d' =>
      have apart : index ≠ other := by
        rintro rfl
        exact different (congrArg (fun i => Target.place ⟨.strings, i, index⟩) same)
      simp only [describe, RemoteEntity.localizeEdit_comm apart]

theorem change_comm (different : r.target ≠ s.target) (same : r.touched = s.touched)
    (current : UInt16) (m : ConfigurationModel) :
    s.describe current (s.learn (r.describe current (r.learn m))) =
      r.describe current (r.learn (s.describe current (s.learn m))) := by
  calc s.describe current (s.learn (r.describe current (r.learn m)))
      = s.describe current (r.describe current (s.learn (r.learn m))) :=
        congrArg (s.describe current) (describe_learn current r s (r.learn m)).symm
    _ = r.describe current (s.describe current (r.learn (s.learn m))) := by
      rw [describe_comm different same, learn_comm different same]
    _ = r.describe current (r.learn (s.describe current (s.learn m))) :=
        congrArg (r.describe current) (describe_learn current s r (s.learn m))

end Response

namespace RemoteEntity

theorem apply_response (e : RemoteEntity) (r : Response) :
    e.apply r.toOperation =
      e.modifyConfiguration r.touched fun m => r.describe e.currentConfiguration (r.learn m) := by
  cases r with
  | configuration i d => rfl
  | descriptor p d => rfl
  | strings i index d =>
    rw [Response.toOperation, RemoteEntity.apply, setStrings_eq]
    simp only [Response.touched, Response.describe, Response.learn, ConfigurationModel.dynamic_upsert]

theorem apply_response_comm (e : RemoteEntity) {r s : Response} (different : r.target ≠ s.target) :
    (e.apply r.toOperation).apply s.toOperation = (e.apply s.toOperation).apply r.toOperation := by
  have current : ∀ t : Response,
      (e.apply t.toOperation).currentConfiguration = e.currentConfiguration := by
    intro t
    rw [apply_response]
    rfl
  rw [apply_response (e.apply r.toOperation), apply_response (e.apply s.toOperation), current, current,
    apply_response, apply_response]
  simp only [modifyConfiguration, modifyModel]
  by_cases same : r.touched = s.touched
  · rw [← same, SortedMap.upsert_upsert_self, SortedMap.upsert_upsert_self]
    simp only [Response.change_comm different same]
  · rw [SortedMap.upsert_comm _ same]

/-- Responses about different things lead to the same state in whatever order they come. -/
theorem run_responses_perm (e : RemoteEntity) {rs rs' : List Response} (order : rs.Perm rs')
    (distinct : (rs.map Response.target).Nodup) :
    e.run (rs.map Response.toOperation) = e.run (rs'.map Response.toOperation) := by
  have exchange : ∀ r ∈ rs, ∀ s ∈ rs, ∀ f : RemoteEntity,
      (f.apply r.toOperation).apply s.toOperation = (f.apply s.toOperation).apply r.toOperation := by
    intro r hr s hs f
    by_cases same : r.target = s.target
    · obtain rfl := List.inj_on_of_nodup_map distinct hr hs same
      rfl
    · exact apply_response_comm f same
  have folded : rs.foldl (fun f r => f.apply r.toOperation) e =
      rs'.foldl (fun f r => f.apply r.toOperation) e :=
    order.foldl_eq' exchange e
  rw [run, run, List.foldl_map, List.foldl_map]
  exact folded

theorem strings_before_their_configuration :
    let e := (new { capabilities := .aemSupported } {} .zero).run [.selectLocale 0 4 2]
    let rs : List Response := [.configuration 0 { objectName := "Default" },
      .descriptor ⟨.streamInput, 0, 1⟩ default, .strings 0 4 { strings := ["Input", "Output"] },
      .strings 0 5 { strings := ["Clock"] }, .strings 0 6 { strings := ["Control"] }]
    rs.Perm rs.reverse ∧ (rs.map Response.target).Nodup ∧
      e.run (rs.map Response.toOperation) = e.run (rs.reverse.map Response.toOperation) ∧
      (e.run (rs.reverse.map Response.toOperation)).localizedString 0 ⟨1⟩ = "Output" ∧
      (e.run (rs.reverse.map Response.toOperation)).localizedString 0 ⟨8⟩ = "Clock" := by
  intro e rs
  have order : rs.Perm rs.reverse := (List.reverse_perm rs).symm
  have distinct : (rs.map Response.target).Nodup := by decide
  exact ⟨order, distinct, run_responses_perm e order distinct, by decide, by decide⟩

end RemoteEntity

end AvbEntity
