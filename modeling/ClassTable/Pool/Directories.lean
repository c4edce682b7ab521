import ClassTable.Pool.Basic

/-!
The pass that places the annotation directories. The classes that need a directory get one after
another, in the order of their indices, each at the first multiple of four that is free. All offsets
are planned before the first is written, so a failed pass writes nothing.
-/

namespace ClassTable.Pool

def planOffsets (sizeOf : Entry → UInt32) (start : UInt32) :
    List Entry → Except PoolError (List (Descriptor × UInt32) × UInt32)
  | [] => .ok ([], start)
  | entry :: rest =>
    if entry.hasDirectory then
      match Word.checkedAlign start with
      | none => .error (.offsetOverflow entry.type)
      | some aligned =>
        match entry.offset.get? with
        | some current =>
          .error (.slot (.alreadyAssigned .annotationDirectoryOffset current aligned))
        | none =>
          if aligned = noOffset then
            .error (.slot (.sentinelValue .annotationDirectoryOffset aligned))
          else
            match Word.checkedAdd aligned (sizeOf entry) with
            | none => .error (.offsetOverflow entry.type)
            | some next => do
              let (plan, stop) ← planOffsets sizeOf next rest
              return ((entry.type, aligned) :: plan, stop)
    else planOffsets sizeOf start rest

def assignOffsets (pool : Pool) (start : UInt32) (sizeOf : Entry → UInt32) : Pass UInt32 :=
  match pool.byIndex with
  | .error failure => ⟨.error failure, pool, []⟩
  | .ok entries =>
    match planOffsets sizeOf start entries with
    | .error failure => ⟨.error failure, pool, []⟩
    | .ok (plan, stop) =>
      let written := write .annotationDirectoryOffset plan pool
      match written.result with
      | .error failure => ⟨.error failure, written.pool, written.events⟩
      | .ok () =>
        ⟨.ok stop, written.pool, written.events ++ [.offsetsAssigned plan.length stop]⟩

end ClassTable.Pool
