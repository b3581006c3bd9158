import Oscan.Runtime.ArrayCalls

/-! Whole runs of calls on dynamic arrays. -/
namespace Oscan.Runtime.Arrays
open Library.Acting

variable {h : Heap} {t : Lists}

theorem agrees_element {n i : Nat} {a : Array} {b : Block} {r : Ref} (same : r = some n) (stands : Stands h t)
    (listed : h.arrays[n]? = some a) (placed : h.blocks[a.data]? = some b) (fits : (i + 1) * a.elemSize ≤ b.size) :
    Agrees Stands (element r (a.at i) h) ((pure (.element (b.slot a.elemSize i)) : Act Lists Answer) t) := by
  subst same
  rw [element,nonNull,bind_apply,pure_apply,andThen_done,bind_apply,fields,listed]
  show Agrees Stands ((bytesAt (a.at i) a.elemSize >>= _) h) _
  rw [bind_apply,bytesAt_slot placed fits]
  exact ⟨rfl,stands⟩

theorem agrees_nothing {act : Act Heap Unit} {act' : Act Lists Unit} (agrees : Agrees Stands (act h) (act' t)) :
    Agrees Stands (nothing act h) (Meaning.nothing act' t) :=
  agrees.bind fun _ _ _ related => ⟨rfl,related⟩

theorem agrees_answer {α : Type} {act : Act Heap α} {act' : Act Lists α} {answer : α → Answer}
    (agrees : Agrees Stands (act h) (act' t)) :
    Agrees Stands ((act >>= fun x => pure (answer x)) h) ((act' >>= fun x => pure (answer x)) t) :=
  agrees.bind fun _ _ _ related => ⟨rfl,related⟩

/-- Every call does to the elements what it is for. -/
theorem perform_agrees (m : Memory) (c : Call) (h : Heap) (t : Lists) (stands : Stands h t) :
    Agrees Stands (perform m c h) (Meaning.perform c t) := by
  cases c with
  | new arena elemSize capacity => exact agrees_answer (agrees_new stands)
  | push r v => exact agrees_passed stands fun _ _ _ _ stands' passed => agrees_nothing (agrees_push stands' passed)
  | pop r =>
    refine agrees_pop stands fun h' t' n a b i same stands' listed placed fits => ?_
    exact agrees_element same stands' listed placed fits
  | get r index =>
    refine agrees_get stands fun n a b i same listed placed fits => ?_
    exact agrees_element same stands listed placed fits
  | set r index v => exact agrees_passed stands fun _ _ _ _ stands' passed => agrees_nothing (agrees_set stands' passed)
  | insert r index v =>
    exact agrees_passed stands fun _ _ _ _ stands' passed => agrees_nothing (agrees_insert stands' passed)
  | removeAt r index outNull => exact agrees_answer (agrees_removeAt stands)
  | extend destination source => exact agrees_nothing (agrees_extend stands)
  | slice arena r start stop => exact agrees_answer (agrees_slice stands)
  | clone arena r => exact agrees_answer (agrees_clone stands)
  | repeat' arena elemSize v count =>
    exact agrees_passed stands fun _ _ _ _ stands' passed => agrees_answer (agrees_repeat stands' passed)
  | swap r left right => exact agrees_nothing (agrees_swap stands)
  | reverse r => exact agrees_nothing (agrees_reverse stands)
  | fill r v => exact agrees_passed stands fun _ _ _ _ stands' passed => agrees_nothing (agrees_fill stands' passed)
  | clear r => exact agrees_nothing (agrees_clear stands)
  | len r => exact agrees_answer (agrees_len stands)

namespace Meaning

theorem nonNull_reads {r : Ref} : ReadOnly (nonNull r : Act Lists Nat) := by
  cases r with
  | none => exact .panicWith
  | some n => exact .pure

theorem nonNullValue_reads {α : Type} {v : Option α} : ReadOnly (nonNullValue v : Act Lists α) := by
  cases v with
  | none => exact .panicWith
  | some v => exact .pure

theorem elements_reads {n : Nat} : ReadOnly (elements n) := by
  intro t
  unfold elements
  split
  · exact ⟨fun x s' same => by cases same; rfl,fun _ _ no => by cases no⟩
  · exact ⟨(fun _ _ no => by cases no),fun _ _ no => by cases no⟩

theorem whole_reads {size : Nat} {bytes : List UInt8} : ReadOnly (whole size bytes) := by
  unfold whole
  split
  · exact .pure
  · exact .undefined

theorem put_silent {n : Nat} {e : Elements} : Silent (put n e) := fun _ _ _ no => by cases no

theorem add_silent {e : Elements} : Silent (add e) := fun _ _ _ no => by cases no

theorem get_reads {r : Ref} {index : Int} : ReadOnly (get r index) :=
  nonNull_reads.bind fun _ => elements_reads.bind fun _ => ReadOnly.refuse.bind fun _ => .pure

/-- The value of the call is no element that is taken from an array for it. -/
def Direct : Call → Prop
  | .push _ (.popped _) | .set _ _ (.popped _) | .insert _ _ (.popped _) | .repeat' _ _ (.popped _) _
  | .fill _ (.popped _) => False
  | _ => True

theorem value_reads {v : Value} (direct : ∀ r, v ≠ .popped r) : ReadOnly (value v) := by
  cases v with
  | null | bytes => exact .pure
  | element r index => exact get_reads.bind fun _ => .pure
  | popped r => exact absurd rfl (direct r)

theorem push_steady {r : Ref} {v : Option (List UInt8)} : Steady (push r v) :=
  .after nonNull_reads fun _ => .after nonNullValue_reads fun _ => .after elements_reads fun _ =>
    .after .refuse fun _ => .after whole_reads fun _ => put_silent.steady

theorem set_steady {r : Ref} {index : Int} {v : Option (List UInt8)} : Steady (set r index v) := by
  refine .after nonNull_reads fun _ => .after elements_reads fun _ => .after .refuse fun _ => ?_
  cases v with
  | none => exact ReadOnly.undefined.steady
  | some bytes => exact .after whole_reads fun _ => put_silent.steady

theorem insert_steady {r : Ref} {index : Int} {v : Option (List UInt8)} : Steady (insert r index v) :=
  .after nonNull_reads fun _ => .after nonNullValue_reads fun _ => .after elements_reads fun _ =>
    .after .refuse fun _ => .after .refuse fun _ => .after whole_reads fun _ => put_silent.steady

theorem fill_steady {r : Ref} {v : Option (List UInt8)} : Steady (fill r v) :=
  .after nonNull_reads fun _ => .after nonNullValue_reads fun _ => .after elements_reads fun _ =>
    .after whole_reads fun _ => put_silent.steady

theorem repeat_steady {elemSize count : Int} {v : Option (List UInt8)} : Steady (repeat' elemSize v count) :=
  .after nonNullValue_reads fun _ => .after .refuse fun _ => .after .refuse fun _ => .after whole_reads fun _ =>
    add_silent.steady

theorem nothing_steady {act : Act Lists Unit} (steady : Steady act) : Steady (nothing act) :=
  steady.before fun _ => .pure

theorem valued {α : Type} {v : Value} {f : Option (List UInt8) → Act Lists α} (direct : ∀ r, v ≠ .popped r)
    (steady : ∀ x, Steady (f x)) : Steady (value v >>= f) := .after (value_reads direct) steady

/-- A call that panics leaves the lists as they were. -/
theorem perform_steady {c : Call} (direct : Direct c) : Steady (perform c) := by
  cases c with
  | new arena elemSize capacity =>
    exact Steady.before (.after .refuse fun _ => .after .refuse fun _ => add_silent.steady) fun _ => .pure
  | push r v => exact valued (fun r' same => by subst same; exact direct) fun _ => nothing_steady push_steady
  | pop r =>
    refine Steady.before (.after nonNull_reads fun _ => .after elements_reads fun _ => .after .refuse fun _ => ?_) fun _ => .pure
    exact put_silent.steady.before fun _ => .pure
  | get r index => exact get_reads.steady.before fun _ => .pure
  | set r index v => exact valued (fun r' same => by subst same; exact direct) fun _ => nothing_steady set_steady
  | insert r index v => exact valued (fun r' same => by subst same; exact direct) fun _ => nothing_steady insert_steady
  | removeAt r index outNull =>
    refine Steady.before (.after nonNull_reads fun _ => .after .refuse fun _ => .after elements_reads fun _ =>
      .after .refuse fun _ => ?_) fun _ => .pure
    exact put_silent.steady.before fun _ => .pure
  | extend destination source =>
    exact nothing_steady (.after nonNull_reads fun _ => .after nonNull_reads fun _ => .after elements_reads fun _ =>
      .after elements_reads fun _ => .after .refuse fun _ => .after .refuse fun _ => put_silent.steady)
  | slice arena r start stop =>
    exact Steady.before (.after nonNull_reads fun _ => .after elements_reads fun _ => .after .refuse fun _ =>
      add_silent.steady) fun _ => .pure
  | clone arena r =>
    exact Steady.before (.after nonNull_reads fun _ => .after elements_reads fun _ => add_silent.steady) fun _ => .pure
  | repeat' arena elemSize v count =>
    exact valued (fun r' same => by subst same; exact direct) fun _ => repeat_steady.before fun _ => .pure
  | swap r left right =>
    exact nothing_steady (.after nonNull_reads fun _ => .after elements_reads fun _ => .after .refuse fun _ =>
      put_silent.steady)
  | reverse r => exact nothing_steady (.after nonNull_reads fun _ => .after elements_reads fun _ => put_silent.steady)
  | fill r v => exact valued (fun r' same => by subst same; exact direct) fun _ => nothing_steady fill_steady
  | clear r => exact nothing_steady (.after nonNull_reads fun _ => .after elements_reads fun _ => put_silent.steady)
  | len r =>
    exact Steady.before (.after nonNull_reads fun _ => .after elements_reads fun _ => ReadOnly.pure.steady) fun _ => .pure

end Meaning

def empty : Heap := ⟨[],[]⟩

theorem empty_stands : Stands empty [] := by
  refine ⟨rfl,fun n a e listed => ?_,fun n k a a' listed => ?_⟩ <;> cases listed

end Oscan.Runtime.Arrays
