import DocPages.Proofs.Json.Distinct
import DocPages.Proofs.Json.Equality
import DocPages.Proofs.Json.Reading

/-!
# The values that texts hold

A number is rounded into the range of doubles however it is written, and a name that an object has twice keeps its
last value. So all that is read is proper, and since a proper value is read back from its written form, those are
the values that texts hold.
-/

namespace DocPages.Json

theorem proper_readUnsigned {neg : Bool} {t rest : Text} {v : Json} (h : readUnsigned neg t = some (v, rest)) :
    v.Proper := by
  obtain ⟨⟨ds, r⟩, -, he⟩ := Option.map_eq_some_iff.1 h
  dsimp only at he
  split at he
  · obtain ⟨rfl, -⟩ := Prod.mk.inj he
    exact Double.proper_ofDecimal ..
  · split at he
    · obtain ⟨rfl, -⟩ := Prod.mk.inj he
      trivial
    · obtain ⟨rfl, -⟩ := Prod.mk.inj he
      exact Double.proper_ofDecimal ..

theorem proper_word {w t rest : Text} {v j : Json}
    (h : ((Text.after? w t).map fun rest => (j, rest)) = some (v, rest)) (hj : j.Proper) : v.Proper := by
  obtain ⟨r, -, he⟩ := Option.map_eq_some_iff.1 h
  obtain ⟨rfl, -⟩ := Prod.mk.inj he
  exact hj

theorem proper_readAtom {t rest : Text} {v : Json} (h : readAtom t = some (v, rest)) : v.Proper := by
  unfold readAtom at h
  dsimp only at h
  split at h
  · exact proper_word h trivial
  · exact proper_word h trivial
  · exact proper_word h trivial
  · exact proper_word h trivial
  · exact proper_word h trivial
  · exact proper_word h trivial
  · exact proper_readUnsigned h
  · exact proper_readUnsigned h

theorem proper_ofList {ms : Members} (h : ProperMembers ms) : (Json.obj (Keyed.ofList ms)).Proper := by
  refine proper_obj_iff.2 ⟨Keyed.nodup_ofList ms, fun m hm => properMembers_iff.1 h m ?_⟩
  exact (Keyed.mem_update hm).resolve_left List.not_mem_nil

/-- Every step of the reader makes a proper value of proper ones. -/
theorem steps_proper : Steps (fun _ v _ => v.Proper) (fun _ vs _ => ProperItems vs) fun _ ms _ => ProperMembers ms where
  atom hatom := proper_readAtom hatom
  string _ := trivial
  noItems _ := trivial
  items hitems := hitems
  noMembers _ := ⟨List.nodup_nil, trivial⟩
  members hmembers := proper_ofList hmembers
  lastItem hv _ := ⟨hv, trivial⟩
  nextItem hv _ hmore := ⟨hv, hmore⟩
  lastMember _ _ hv _ := ⟨hv, trivial⟩
  nextMember _ _ hv _ hmore := ⟨hv, hmore⟩

theorem proper_of_parse? {t : Text} {v : Json} (h : parse? t = some v) : v.Proper := by
  obtain ⟨rest, hread, -⟩ := read_of_parse? h
  exact (steps_proper.holds _).value hread

/-- A number between two doubles, and a name twice. -/
example : parse? "\x7b\"a\": 9007199254740993, \"b\": 0.1e400, \"a\": 9007199254740993.0\x7d" =
    some (.obj [("a".toList, .double (.finite false (2 ^ 52) 1)), ("b".toList, .double (.infinite false))]) := by
  decide +kernel

/-- The proper values are those that some text holds. -/
theorem proper_iff_exists_parse? {v : Json} : v.Proper ↔ ∃ t, parse? t = some v :=
  ⟨fun h => ⟨compact v, parse?_compact h⟩, fun ⟨_, h⟩ => proper_of_parse? h⟩

/-- What has been read is read again from either of its written forms. -/
theorem parse?_written {t : Text} {v : Json} (h : parse? t = some v) :
    parse? (compact v) = some v ∧ parse? (indented v) = some v :=
  ⟨parse?_compact (proper_of_parse? h), parse?_indented (proper_of_parse? h)⟩

end DocPages.Json
