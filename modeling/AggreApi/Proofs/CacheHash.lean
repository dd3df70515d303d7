import AggreApi.CacheHash
import AggreApi.Lib.Run

/-!
# A cache entry is whole while every write of a field finds the key

A field written to a key that is gone since its TTL was read makes a new hash of that one field.
Nothing else makes a partial entry.
-/

namespace AggreApi

open AList

theorem CacheKind.exists_field_ne (kind : CacheKind) (f : String) : ∃ g ∈ kind.fields, g ≠ f := by
  have hid : "Id" ∈ kind.fields := by cases kind <;> decide
  have hgroup : "Group" ∈ kind.fields := by cases kind <;> decide
  by_cases h : "Id" = f
  · exact ⟨"Group", hgroup, fun hg => absurd (h.trans hg.symm) (by decide)⟩
  · exact ⟨"Id", hid, h⟩

theorem CacheKind.nodup_fields (kind : CacheKind) : kind.fields.Nodup := by
  cases kind <;> decide

namespace FieldWrite

variable {hash : AList fun _ : String => String}

theorem mem_apply_of_mem {f : String} (h : f ∈ hash) (w : FieldWrite) : f ∈ w.apply hash := by
  cases w with
  | incr =>
    unfold apply
    dsimp only
    split
    · exact (mem_insert _).2 (.inr h)
    · split
      · exact (mem_insert _).2 (.inr h)
      · exact h
  | set => exact (mem_insert _).2 (.inr h)

theorem mem_apply_empty {f : String} (w : FieldWrite) : f ∈ w.apply ∅ ↔ f = w.field := by
  cases w <;> exact (mem_insert _).trans (or_iff_left (notMem_empty f))

end FieldWrite

namespace CacheRace

section Step

variable {kind : CacheKind} {s : CacheRace}

/-- The key does not exist or has all fields of the object. -/
def Whole (kind : CacheKind) (s : CacheRace) : Prop :=
  s.present = true → ∀ f ∈ kind.fields, f ∈ s.hash

theorem present_of_mem {f : String} (h : f ∈ s.hash) : s.present = true := by
  simp only [present, decide_eq_true_eq]
  intro hnil
  have : f ∈ s.hash.entries.keys := h
  rw [hnil] at this
  cases this

theorem hash_of_not_present (h : s.present = false) : s.hash = ∅ := by
  simp only [present, decide_eq_false_iff_not, not_not] at h
  exact ext h

theorem whole_of_empty (h : s.hash = ∅) : s.Whole kind := by
  intro hp
  rw [present, h] at hp
  cases hp

theorem redisHGetObj_whole_iff :
    (∀ obj ∈ s.redisHGetObj kind, ∀ p ∈ obj, p.2.isSome) ↔ s.Whole kind := by
  unfold redisHGetObj Whole
  cases s.present with
  | false => simp
  | true =>
    simp only [if_true, Option.mem_def, Option.some.injEq, forall_eq', List.forall_mem_map,
      forall_const]
    exact forall₂_congr fun f _ => lookup_isSome

theorem mem_insertAll_fields {obj : String → String} {f : String} (h : f ∈ kind.fields) :
    f ∈ insertAll s.hash (kind.fields.map fun g => (g, obj g)) := by
  have hnodup : ((kind.fields.map fun g => (g, obj g)).map Prod.fst).Nodup := by
    rw [List.map_map]
    exact (List.map_id kind.fields).symm ▸ kind.nodup_fields
  rw [← lookup_isSome, lookup_insertAll_of_mem hnodup (List.mem_map_of_mem h)]
  rfl

theorem not_whole_apply_empty (write : FieldWrite) {s' : CacheRace}
    (hhash : s'.hash = write.apply ∅) : ¬s'.Whole kind := by
  intro hwhole
  obtain ⟨g, hg, hne⟩ := kind.exists_field_ne write.field
  have hwritten : write.field ∈ s'.hash := by
    rw [hhash]
    exact write.mem_apply_empty.2 rfl
  have hmem := hwhole (present_of_mem hwritten) g hg
  rw [hhash] at hmem
  exact hne (write.mem_apply_empty.1 hmem)

theorem whole_step_iff (kind : CacheKind) (e : CacheEvent) (h : s.Whole kind) :
    (s.step kind e).Whole kind ↔ s.found e = true := by
  cases e with
  | expire => exact iff_of_true (whole_of_empty rfl) rfl
  | proc i =>
    unfold step found
    dsimp only
    cases s.procs[i]? with
    | none => exact iff_of_true h rfl
    | some pos =>
      cases pos with
      | starting op =>
        refine iff_of_true ?_ rfl
        cases op with
        | redisHSetObj => exact fun _ f hf => mem_insertAll_fields hf
        | redisDelKey => exact whole_of_empty rfl
        | redisHWrite =>
          unfold advance
          dsimp only
          split_ifs <;> exact h
      | writing write =>
        cases hp : s.present with
        | true =>
          exact iff_of_true (fun _ f hf => write.mem_apply_of_mem (h hp f hf)) rfl
        | false =>
          refine iff_of_false (not_whole_apply_empty write ?_) Bool.false_ne_true
          rw [← hash_of_not_present hp]
          rfl
      | ended => exact iff_of_true h rfl

end Step

/-- In every state a run reaches the entry is whole, and is read back whole, exactly when every
write of a field finds the key. -/
theorem entry_whole_iff (kind : CacheKind) (ops : List CacheOp) (es : List CacheEvent) :
    (∀ pre post, es = pre ++ post →
        ((run (step kind) (init ops) pre).present = true →
          ∀ f ∈ kind.fields, f ∈ (run (step kind) (init ops) pre).hash) ∧
        ∀ obj ∈ (run (step kind) (init ops) pre).redisHGetObj kind, ∀ p ∈ obj, p.2.isSome) ↔
      Along (step kind) (fun s e => s.found e = true) (init ops) es := by
  rw [along_iff_reached (I := Whole kind) (fun _ e h => whole_step_iff kind e h)
    (whole_of_empty rfl)]
  refine forall₃_congr fun pre post _ => ?_
  rw [redisHGetObj_whole_iff]
  exact and_self_iff

def chargeAndInvalidate : List CacheOp :=
  [.redisHSetObj fun _ => "1", .redisHWrite (.incr "Quota" (-300)), .redisDelKey]

/-- The entry that the charge leaves behind has no group, no status and nothing but a quota. -/
theorem entry_of_one_field : (run (step .user) (init chargeAndInvalidate)
        [.proc 0 60, .proc 1 60, .proc 2 60, .proc 1 60]).redisHGetObj .user
      = some [("Id", none), ("Group", none), ("Email", none), ("Quota", some "-300"),
          ("Status", none), ("Username", none), ("Setting", none)] := by
  decide

end CacheRace

end AggreApi
