/-
  Events written one a line.

  * `eventData_inj`: the data of an event hold the whole event.
  * `eventLine_unforgeable`: an event is one printable line, by which it can be told from all others,
    whatever texts it carries.
-/
import Vitals.Proofs.Text.Json
import Vitals.Proofs.Text.Table
import Vitals.Report.Progress

namespace Vitals

/-! ## Names -/

theorem Http.Method.name_inj {a b : Method} (h : a.name = b.name) : a = b := by
  cases a <;> cases b <;> first | rfl | exact absurd h (by decide)

theorem Http.Version.name_inj {a b : Version} (h : a.name = b.name) : a = b := by
  cases a <;> cases b <;> first | rfl | exact absurd h (by decide)

namespace Report

open Text

variable {e f : Event} {n m : UInt64}

/-! ## Data -/

theorem word_inj : word n = word m ↔ n = m := by
  rw [word, word, Json.number.injEq, UInt64.toNat_inj]

theorem statData_inj {s t : Stat} (h : statData s = statData t) : s = t := by
  cases s
  cases t
  simpa [statData, word_inj] using h

theorem requestData_inj {r s : Request} (h : requestData r = requestData s) : r = s := by
  cases r
  cases s
  simp only [requestData, Json.record.injEq, List.cons.injEq, Prod.mk.injEq, Json.text.injEq,
    Json.number.injEq, UInt16.toNat_inj, word_inj, true_and] at h
  obtain ⟨hmethod, hversion, hrest⟩ := h
  rw [Http.Method.name_inj hmethod, Http.Version.name_inj hversion]
  simpa using hrest

theorem list_map_inj {α : Type} {data : α → Json} (hdata : ∀ {a b}, data a = data b → a = b)
    {as bs : List α} (h : some (Json.list (as.map data)) = some (Json.list (bs.map data))) :
    as = bs :=
  List.map_injective_iff.2 (fun _ _ => hdata) (Json.list.inj (Option.some.inj h))

/-- An event is known by its name and by what it carries. -/
theorem eq_of_name_of_eventPayload (hname : e.name = f.name)
    (hdata : eventPayload e = eventPayload f) : e = f := by
  cases e <;> cases f
  case statsSeeded.statsSeeded | statsPrepended.statsPrepended | statsAppended.statsAppended =>
    exact congrArg _ (list_map_inj statData_inj hdata)
  case requestsPrepended.requestsPrepended =>
    exact congrArg _ (list_map_inj requestData_inj hdata)
  case serverTime.serverTime => exact congrArg _ (word_inj.1 (Option.some.inj hdata))
  case historyExhausted.historyExhausted | closed.closed => rfl
  all_goals simp [Event.name] at hname

/-- **The data of an event hold the whole event.** -/
theorem eventData_inj (h : eventData e = eventData f) : e = f := by
  obtain ⟨hhead, hpayload⟩ := List.cons.inj (Json.record.inj h)
  have hname : e.name = f.name := Json.text.inj (Prod.mk.inj hhead).2
  refine eq_of_name_of_eventPayload hname ?_
  cases he : eventPayload e <;> cases hf : eventPayload f <;> simp_all

/-! ## Lines -/

theorem plain_word (n : UInt64) : (word n).Plain := .number n.toNat

theorem plain_statData (s : Stat) : (statData s).Plain := by
  refine .record ?_
  simp only [List.forall_mem_cons]
  exact ⟨plain_word _, plain_word _, plain_word _, plain_word _, plain_word _, plain_word _,
    plain_word _, plain_word _, plain_word _, plain_word _, plain_word _, plain_word _, by simp⟩

theorem plain_requestData (r : Request) : (requestData r).Plain := by
  refine .record ?_
  simp only [List.forall_mem_cons]
  exact ⟨.text _, .text _, plain_word _, plain_word _, plain_word _, .number _, .text _, .text _,
    .text _, .text _, .text _, by simp⟩

theorem plain_list_map {α : Type} {data : α → Json} (hdata : ∀ a, (data a).Plain) (as : List α) :
    (Json.list (as.map data)).Plain := by
  refine .list fun v hv => ?_
  obtain ⟨a, -, rfl⟩ := List.mem_map.1 hv
  exact hdata a

theorem plain_eventPayload {d : Json} (h : eventPayload e = some d) : d.Plain := by
  cases e with
  | statsSeeded | statsPrepended | statsAppended =>
    cases h
    exact plain_list_map plain_statData _
  | requestsPrepended =>
    cases h
    exact plain_list_map plain_requestData _
  | serverTime =>
    cases h
    exact plain_word _
  | historyExhausted | closed => cases h

theorem plain_eventData (e : Event) : (eventData e).Plain := by
  refine .record (List.forall_mem_cons.2 ⟨.text _, fun f hf => ?_⟩)
  obtain ⟨d, hd, rfl⟩ := Option.map_eq_some_iff.1 (Option.mem_toList.1 hf)
  exact plain_eventPayload hd

theorem eventLine_inj : eventLine e = eventLine f ↔ e = f :=
  ⟨fun h => eventData_inj (Json.compact_inj (plain_eventData e) (plain_eventData f) h),
    fun h => congrArg _ h⟩

theorem printable_eventLine (e : Event) : Json.Printable (eventLine e).toList := by
  rw [eventLine, Json.compact, String.toList_ofList]
  exact Json.printable_compactChars (plain_eventData e)

theorem dataProgress?_eq_some_iff {line : String} :
    dataProgress? e = some line ↔ line = eventLine e ∧ ∀ millis, e ≠ .serverTime millis := by
  unfold dataProgress?
  split
  case h_1 millis => exact iff_of_false (by simp) fun h => h.2 millis rfl
  case h_2 hother =>
    rw [Option.some.injEq]
    exact ⟨fun h => ⟨h.symm, hother⟩, fun h => h.1.symm⟩

end Report

open Report Text

/-- **The line of an event cannot be forged.** It is one line without control characters, whatever
texts the event carries, and no other event has the same line. Who follows the stats history as data
is shown exactly this line of each event, save the clock of the server, which is not shown. -/
theorem eventLine_unforgeable (color : Bool) (e : Event) :
    OneLine (eventLine e) ∧ (∀ c ∈ (eventLine e).toList, 0x20 ≤ c.toNat) ∧
    (∀ f, eventLine e = eventLine f ↔ e = f) ∧
    ∃ shown, statsProgress ⟨true, color⟩ e = .ok shown ∧
      ∀ line, shown = some line ↔ line = eventLine e ∧ ∀ millis, e ≠ .serverTime millis := by
  refine ⟨fun h => ?_, printable_eventLine e, fun f => eventLine_inj, _, rfl, fun line => ?_⟩
  · exact absurd (printable_eventLine e _ h) (by decide)
  · exact dataProgress?_eq_some_iff

end Vitals
