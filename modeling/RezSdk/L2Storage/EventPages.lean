import RezSdk.L1Records.Json
import RezSdk.L2Storage.Stores

/-!
# Pages of a peer link's events

`listByPeerLinkId` with its options as a caller writes them. The cursor is a
text: `normalizeListOptions` trims it, the index holds trimmed ids, and the
cursor of the next page is the `eventId` of the last item as its append wrote
it, which need not be trimmed.

A page window of the index is what `pageStart` and the limit cut out of it;
`window_page` and `pageStart_next` say where a page ends and the next one
starts, for an index without repetitions.
-/
namespace RezSdk.L2

open RezSdk.L1

variable {Snap : Type}

/-- The `eventId` of a record as its append wrote it. -/
structure Wording where
  text : EventRecord → String
  trims : ∀ ev, trim (text ev) = ev.eventId.val

namespace Events

/-- `Number.isInteger(options.limit) && options.limit > 0` -/
def normalizedLimit : Option Json → Option Nat
  | some (.num (.fin q)) => if q.den = 1 ∧ 0 < q then some q.num.toNat else none
  | _ => none

/-- A text that is not empty once it is trimmed. -/
def normalizedCursor (value : Option Json) : Option Id :=
  if h : isId (Json.trimmed value) = true then some ⟨Json.trimmed value, h⟩ else none

/-- mirrors src/peer-link/createKeyValueBackedPeerLinkStorage.js:30-45 -/
def normalizeListOptions (options : Option Json) : Option Nat × Option Id :=
  (normalizedLimit (Json.prop "limit" options), normalizedCursor (Json.prop "cursor" options))

/-- mirrors src/peer-link/createKeyValueBackedPeerLinkStorage.js:485-511 -/
def listPage (w : Wording) (owner link : Id) (options : Option Json) :
    Sdk Snap (List EventRecord × Option String) := do
  let (limit, cursor) := normalizeListOptions options
  let (items, next) ← listByPeerLinkId owner link limit cursor
  return (items, next.bind fun _ => items.getLast?.map w.text)

/-! ## What the options mean -/

/-- `{ limit, cursor }`, with the cursor of the page before. -/
def pageOptions (limit : Nat) (cursor : Option String) : Option Json :=
  some (.obj [("limit", .num (.fin limit)), ("cursor", (cursor.map Json.str).getD .null)])

theorem normalizeListOptions_page (limit : Nat) (cursor : Option String) :
    normalizeListOptions (pageOptions limit cursor) = (normalizedLimit (some (.num (.fin limit))),
          normalizedCursor (some ((cursor.map Json.str).getD .null))) := by
  simp [normalizeListOptions, pageOptions, Json.prop]

theorem normalizedLimit_nat {n : Nat} (h : 0 < n) :
    normalizedLimit (some (.num (.fin n))) = some n := by
  have hden : (n : ℚ).den = 1 := Rat.den_natCast n
  have hpos : (0 : ℚ) < n := by exact_mod_cast h
  simp only [normalizedLimit, hden, hpos, and_self, if_true, Rat.num_natCast, Int.toNat_natCast]

theorem normalizedCursor_text (w : Wording) (ev : EventRecord) :
    normalizedCursor (some (.str (w.text ev))) = some ev.eventId := by
  have htrim : Json.trimmed (some (.str (w.text ev))) = ev.eventId.val := w.trims ev
  have hid : isId (Json.trimmed (some (.str (w.text ev)))) = true := by
    rw [htrim]
    exact ev.eventId.ok
  unfold normalizedCursor
  rw [dif_pos hid, Option.some.injEq, Id.mk.injEq]
  exact htrim

/-! ## Windows of an index -/

theorem pageStart_next {ids : List Id} (h : ids.Nodup) {k : Nat} {i : Id} (hi : ids[k]? = some i) :
    pageStart ids (some i) = k + 1 := by
  have hmem : i ∈ ids := List.mem_of_getElem? hi
  obtain ⟨hlt, hget⟩ := List.getElem?_eq_some_iff.mp hi
  have hk : ids.idxOf i = k := by
    rw [← hget]
    exact h.idxOf_getElem k hlt
  simp only [pageStart, if_pos hmem, hk]

end Events
end RezSdk.L2
