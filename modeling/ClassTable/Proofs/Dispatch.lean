import ClassTable.ClassDef.Draft
import ClassTable.Proofs.Keywords
import ClassTable.Proofs.Stability

/-!
The groups that the methods of a draft are split into. Each group holds, of the methods in it that
have one identity, the one that is listed first, and together they lose no method. Methods are told
apart by their flags, which are no part of what identifies them: a method that is listed more than
once may come to stand in both groups. Nothing else makes the groups overlap.
-/

namespace ClassTable.Method

/-- What makes a method direct: the bit for static (`0x8`), private (`0x2`) or constructor
(`0x10000`), or the name of an initializer. -/
def DispatchedStatically (method : Method) : Prop :=
  method.flags.Has 3 ∨ method.flags.Has 1 ∨ method.flags.Has 16 ∨
    method.name = "<init>" ∨ method.name = "<clinit>"

theorem isDirect_iff {method : Method} : method.isDirect = true ↔ method.DispatchedStatically := by
  have isStatic : AccessFlags.staticBit.bits.toNat = 2 ^ 3 := rfl
  have isPrivate : AccessFlags.privateBit.bits.toNat = 2 ^ 1 := rfl
  have constructs : AccessFlags.constructorBit.bits.toNat = 2 ^ 16 := rfl
  have either : method.flags.intersects (.union .staticBit .privateBit) = true ↔
      method.flags.Has 3 ∨ method.flags.Has 1 := by
    simp only [AccessFlags.intersects_iff, AccessFlags.has_union_iff,
      AccessFlags.has_iff_eq isStatic, AccessFlags.has_iff_eq isPrivate, or_and_right, exists_or,
      exists_eq_left]
  rw [isDirect, isConstructor, Bool.or_eq_true, Bool.or_eq_true, Bool.or_eq_true, either,
    AccessFlags.contains_iff_has constructs, beq_iff_eq, beq_iff_eq, DispatchedStatically]
  simp only [or_assoc, instanceConstructorName, staticConstructorName]

def FirstOf (group : Method → Prop) (listed : List Method) (method : Method) : Prop :=
  group method ∧ ∃ before after, listed = before ++ method :: after ∧
    ∀ earlier ∈ before, group earlier → earlier.identity ≠ method.identity

theorem mem_ofList_filter_iff {group : Method → Bool} {listed : List Method} {method : Method} :
    method ∈ (SortedSet.ofList (listed.filter group)).toList ↔
      FirstOf (fun other => group other = true) listed method := by
  rw [SortedSet.mem_ofList_iff, List.find?_filter, List.find?_eq_some_iff_append, FirstOf]
  simp [compare_eq_iff, imp_iff_not_or]

end ClassTable.Method

namespace ClassTable.Draft

def Shared (definition : ClassDef) (identity : Descriptor × String × Prototype) : Prop :=
  (∃ method ∈ definition.directMethods.toList, method.identity = identity) ∧
    ∃ method ∈ definition.virtualMethods.toList, method.identity = identity

theorem exists_identity_ofList_iff {methods : List Method}
    {identity : Descriptor × String × Prototype} :
    (∃ method ∈ (SortedSet.ofList methods).toList, method.identity = identity) ↔
      ∃ method ∈ methods, method.identity = identity :=
  SortedSet.exists_key_ofList_iff Method.compare_eq_iff

theorem shared_buildWith_iff (draft : Draft) (direct : Method → Bool)
    (identity : Descriptor × String × Prototype) :
    Shared (draft.buildWith direct).toClassDef identity ↔
      ∃ accepted ∈ draft.methods, ∃ refused ∈ draft.methods,
        accepted.identity = identity ∧ refused.identity = identity ∧
          direct accepted = true ∧ direct refused = false := by
  simp only [Shared, buildWith, exists_identity_ofList_iff, List.mem_filter, Bool.not_eq_true']
  constructor
  · rintro ⟨⟨accepted, ⟨acceptedGiven, isDirect⟩, acceptedNamed⟩,
      refused, ⟨refusedGiven, isVirtual⟩, refusedNamed⟩
    exact ⟨accepted, acceptedGiven, refused, refusedGiven, acceptedNamed, refusedNamed,
      isDirect, isVirtual⟩
  · rintro ⟨accepted, acceptedGiven, refused, refusedGiven, acceptedNamed, refusedNamed,
      isDirect, isVirtual⟩
    exact ⟨⟨accepted, ⟨acceptedGiven, isDirect⟩, acceptedNamed⟩,
      refused, ⟨refusedGiven, isVirtual⟩, refusedNamed⟩

theorem size_allMethods_eq_add_iff (definition : ClassDef) :
    definition.allMethods.size = definition.directMethods.size + definition.virtualMethods.size ↔
      ∀ identity, ¬ Shared definition identity :=
  SortedSet.size_merged_eq_add_iff_key Method.compare_eq_iff _ _

/-- The groups of a built class have in common what identifies a listed method that is taken for
direct and another one that is not. The class has as many methods as its groups together exactly
when there is no such pair. -/
theorem groups_of_buildWith (draft : Draft) (direct : Method → Bool) :
    (∀ identity, Shared (draft.buildWith direct).toClassDef identity ↔
      ∃ accepted ∈ draft.methods, ∃ refused ∈ draft.methods,
        accepted.identity = identity ∧ refused.identity = identity ∧
          direct accepted = true ∧ direct refused = false) ∧
    ((draft.buildWith direct).allMethods.size =
        (draft.buildWith direct).directMethods.size +
          (draft.buildWith direct).virtualMethods.size ↔
      ∀ left ∈ draft.methods, ∀ right ∈ draft.methods,
        left.identity = right.identity → direct left = direct right) := by
  refine ⟨shared_buildWith_iff draft direct, ?_⟩
  rw [size_allMethods_eq_add_iff]
  simp only [shared_buildWith_iff]
  constructor
  · intro apart left leftGiven right rightGiven same
    have never := apart right.identity
    cases leftKind : direct left <;> cases rightKind : direct right
    · rfl
    · exact absurd ⟨right, rightGiven, left, leftGiven, rfl, same, rightKind, leftKind⟩ never
    · exact absurd ⟨left, leftGiven, right, rightGiven, same, rfl, leftKind, rightKind⟩ never
    · rfl
  · rintro settled identity ⟨accepted, acceptedGiven, refused, refusedGiven, acceptedNamed,
      refusedNamed, isDirect, isVirtual⟩
    have same := settled accepted acceptedGiven refused refusedGiven
      (acceptedNamed.trans refusedNamed.symm)
    rw [isDirect, isVirtual] at same
    cases same

theorem exists_identity_buildWith_iff (draft : Draft) (direct : Method → Bool)
    (identity : Descriptor × String × Prototype) :
    (∃ method ∈ (draft.buildWith direct).allMethods.toList, method.identity = identity) ↔
      ∃ method ∈ draft.methods, method.identity = identity := by
  rw [ClassDef.allMethods, SortedSet.exists_key_merged_iff Method.compare_eq_iff, buildWith,
    exists_identity_ofList_iff, exists_identity_ofList_iff]
  constructor
  · rintro (⟨method, member, named⟩ | ⟨method, member, named⟩)
    · exact ⟨method, List.mem_of_mem_filter member, named⟩
    · exact ⟨method, List.mem_of_mem_filter member, named⟩
  · rintro ⟨method, given, named⟩
    cases kind : direct method with
    | true => exact .inl ⟨method, List.mem_filter.2 ⟨given, kind⟩, named⟩
    | false => exact .inr ⟨method, List.mem_filter.2 ⟨given, by rw [kind]; rfl⟩, named⟩

theorem mem_directMethods_iff (draft : Draft) (direct : Method → Bool) (method : Method) :
    method ∈ (draft.buildWith direct).directMethods.toList ↔
      Method.FirstOf (fun listed => direct listed = true) draft.methods method :=
  Method.mem_ofList_filter_iff

theorem mem_virtualMethods_iff (draft : Draft) (direct : Method → Bool) (method : Method) :
    method ∈ (draft.buildWith direct).virtualMethods.toList ↔
      Method.FirstOf (fun listed => ¬ direct listed = true) draft.methods method := by
  rw [buildWith, Method.mem_ofList_filter_iff]
  simp only [Bool.not_eq_true, Bool.not_eq_true']

/-- Building loses no method and invents none. Each group ascends, and holds of every identity the
method that is listed first among those of the group, and what identifies a method of either group
is what identifies a listed one. A method that is built as its flags and its name tell is direct if
it is dispatched statically. -/
theorem methods_of_buildWith (draft : Draft) (direct : Method → Bool) :
    ((draft.buildWith direct).directMethods.toList.Pairwise fun left right =>
      compare left right = .lt) ∧
    ((draft.buildWith direct).virtualMethods.toList.Pairwise fun left right =>
      compare left right = .lt) ∧
    (∀ method, method ∈ (draft.buildWith direct).directMethods.toList ↔
      Method.FirstOf (fun listed => direct listed = true) draft.methods method) ∧
    (∀ method, method ∈ (draft.buildWith direct).virtualMethods.toList ↔
      Method.FirstOf (fun listed => ¬ direct listed = true) draft.methods method) ∧
    (∀ identity,
      (∃ method ∈ (draft.buildWith direct).allMethods.toList, method.identity = identity) ↔
        ∃ method ∈ draft.methods, method.identity = identity) ∧
    (∀ method, method ∈ draft.build.directMethods.toList ↔
      Method.FirstOf Method.DispatchedStatically draft.methods method) ∧
    ∀ method, method ∈ draft.build.virtualMethods.toList ↔
      Method.FirstOf (fun listed => ¬ listed.DispatchedStatically) draft.methods method := by
  refine ⟨SortedSet.pairwise_toList _, SortedSet.pairwise_toList _,
    draft.mem_directMethods_iff direct, draft.mem_virtualMethods_iff direct,
    draft.exists_identity_buildWith_iff direct, ?_, ?_⟩
  · intro method
    rw [build, mem_directMethods_iff]
    simp only [Method.isDirect_iff]
  · intro method
    rw [build, mem_virtualMethods_iff]
    simp only [Method.isDirect_iff]

def ambiguous : Draft where
  type := ⟨"La;"⟩
  flags := .none
  methods :=
    let method : Method :=
      { definingClass := ⟨"La;"⟩, name := "m", prototype := ⟨[], ⟨"V"⟩⟩, flags := .staticBit }
    [method, { method with flags := .publicBit }]

/-- A method that is listed with and without the static bit is a direct and a virtual method of its
class, and counts once among all methods. -/
theorem ambiguous_shared :
    Shared ambiguous.build.toClassDef (⟨"La;"⟩, "m", ⟨[], ⟨"V"⟩⟩) ∧
      ambiguous.build.directMethods.size = 1 ∧ ambiguous.build.virtualMethods.size = 1 ∧
      ambiguous.build.allMethods.size = 1 := by
  refine ⟨(shared_buildWith_iff ambiguous Method.isDirect _).2 ?_, by cbv, by cbv, by cbv⟩
  exact ⟨_, List.mem_cons_self, _, List.mem_cons_of_mem _ List.mem_cons_self, rfl, rfl,
    by decide, by decide⟩

end ClassTable.Draft
