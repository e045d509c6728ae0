/-
The written parser is faithful.

To the text of a source file it gives the module declaration and its name, as the file has them:
always where a module is declared, and elsewhere if nothing outside all brackets seems to declare
one.  Its lines must not end at carriage returns alone.
-/

import ModulePlan.Proofs.JavaSource.Preamble
import ModulePlan.Proofs.Text.Utf8

namespace ModulePlan.JavaSource

theorem decodeLossy_encode (text : String) :
    Text.Utf8.decodeLossy (Text.Utf8.encode text) = text := by
  unfold Text.Utf8.decodeLossy
  rw [Text.Utf8.characters_encode, List.map_map]
  change String.ofList (text.toList.map id) = text
  rw [List.map_id, String.ofList_toList]

section Parse

variable {tokens : List Token} (apart : AreApart tokens) (feeds : EndAtFeeds tokens)
include apart feeds

theorem parse_bytesOf :
    parse (bytesOf tokens) = ((writtenName? 0 false (tokens.map Token.piece)).map
      fun text => ⟨moduleKind, some (Text.Utf8.encode (String.ofList text))⟩).toList := by
  unfold parse bytesOf
  rw [decodeLossy_encode, String.toList_ofList, pieces_textOf apart feeds]

theorem parse_of_isProper {declaration : Declaration} (same : tokens = declaration.tokens)
    (sound : declaration.IsProper) :
    parse (bytesOf tokens) = [⟨moduleKind, some (bytesOf declaration.name.tokens)⟩] := by
  have leads := leads_of_isPreamble sound.preamble
  have stands : declaration.Stands 0 false :=
    ⟨leads.outside, leads.apart, sound.gap, sound.name, sound.space⟩
  have found := writtenName?_of_opensNothing stands leads.opens
  rw [parse_bytesOf apart feeds, same, found]
  rfl

theorem parse_eq_nil_iff : parse (bytesOf tokens) = [] ↔ ¬SeemsDeclared 0 false tokens := by
  rw [parse_bytesOf apart feeds, Option.toList_eq_nil_iff, Option.map_eq_none_iff,
    writtenName?_eq_none_iff]

/-- A file is parsed as it should be if no more than what it declares seems to be declared. -/
theorem isFaithful_parse (alone : SeemsDeclared 0 false tokens → DeclaresModule tokens) :
    IsFaithful parse tokens := by
  refine ⟨⟨?_, ?_⟩, ?_⟩
  · rintro ⟨node, present, _⟩
    refine alone (not_not.mp fun silent => ?_)
    rw [(parse_eq_nil_iff apart feeds).mpr silent] at present
    exact absurd present List.not_mem_nil
  · rintro ⟨declaration, same, sound⟩
    rw [parse_of_isProper apart feeds same sound]
    exact ⟨_, List.mem_singleton_self _, rfl⟩
  · intro declaration same sound node present _
    rw [parse_of_isProper apart feeds same sound, List.mem_singleton] at present
    rw [present]

end Parse

end ModulePlan.JavaSource
