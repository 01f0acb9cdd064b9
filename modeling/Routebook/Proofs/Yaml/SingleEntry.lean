import Routebook.Proofs.Outcome
import Routebook.Yaml.Read

/-!
# Texts of a single entry

A text is read in steps, each of which may find a fault: its tokens are put
together to a tree, the tree becomes a value, and the merge keys of the value are
resolved.  A text that shows a plain key with a plain value, and nothing else, is
the mapping with this entry.
-/

namespace Routebook.Yaml

open Outcome

/-- What the steps come to for a text with one document. -/
theorem read_of_tokens {text : String} {found : List Token} {node : Node} {root : Bound}
    {anchors : Anchors} {value merged : Value} (htokens : tokens text = found)
    (hnode : FirstDocument.ofTokens found = .ok ⟨some node, false⟩)
    (hroot : bindNode {} node = .ok (root, anchors))
    (hvalue : (nodeValue anchors maxDepth root).run' 0 = .ok value)
    (hmerged : mergeKeys value = .ok merged) :
    read text = .ok merged := by
  have hbound : (some node).mapM (bindNode {}) = .ok (some (root, anchors)) :=
    congrArg (Functor.map some) hroot
  have hplain : readPlain text = .ok value := by
    rw [readPlain, readWith, htokens]
    refine bind_eq_ok.2 ⟨_, mapError_eq_ok.2 hnode, ?_⟩
    exact bind_eq_ok.2 ⟨_, mapError_eq_ok.2 hbound, bind_eq_ok.2 ⟨value, hvalue, rfl⟩⟩
  exact bind_eq_ok.2 ⟨value, hplain, mapError_eq_ok.2 hmerged⟩

/-! ## The tree -/

section Tree

variable {handles : Handles} {token : Token} {tokens rest : List Token} {node : Node}

theorem readNode_scalar (handles : Handles) (place : Place) (text : String)
    (plain : Bool) (rest : List Token) :
    readNode handles place (.scalar text plain :: rest) =
      .ok (.scalar {} text plain, ⟨rest, Nat.le_add_right _ 1⟩) := by
  simp [readNode, readProperties, readContent]

theorem readNode_tag {handle : String} {suffix tag : List UInt8}
    (htag : expandTag handles handle suffix = .ok tag) (place : Place) (text : String)
    (plain : Bool) (rest : List Token) :
    readNode handles place (.tag handle suffix :: .scalar text plain :: rest) =
      .ok (.scalar { tag := some tag } text plain, ⟨rest, Nat.le_add_right _ 2⟩) := by
  simp [readNode, readProperties, readContent, htag, ok_bind, pure, Except.pure]

/-- The exclamation mark stays in front of a text's own tag. -/
theorem expandTag_own (suffix : List UInt8) :
    expandTag defaultHandles "!" suffix = .ok (33 :: suffix) := by
  have hlookup : defaultHandles.lookup "!" = some [33] := by decide +kernel
  simp [expandTag, hlookup]

theorem readNode_entry {h : (.blockEnd :: rest).length ≤ (token :: tokens).length}
    (key : String) (hends : endsBlockPart token = false)
    (hvalue : readNode handles ⟨true, true⟩ (token :: tokens) =
      .ok (node, ⟨.blockEnd :: rest, h⟩)) :
    readNode handles ⟨true, false⟩
        (.blockMappingStart :: .key :: .scalar key true :: .value :: token :: tokens) =
      .ok (.mapping {} [(.scalar {} key true, node)],
        ⟨rest, by simp only [List.length_cons] at h ⊢; omega⟩) := by
  have hkey : endsBlockPart (.scalar key true) = false := rfl
  simp [readNode, readProperties, readContent, readBlockEntries, readOptional, hkey,
    readBlockValue, ok_bind, readNode_scalar, hends, hvalue, pure, Except.pure]

/-- The tree of a mapping with one entry, whose value is what is read behind the
key. -/
theorem ofTokens_entry {h : [.blockEnd, .streamEnd].length ≤ (token :: tokens).length}
    (key : String) (hends : endsBlockPart token = false)
    (hvalue : readNode defaultHandles ⟨true, true⟩ (token :: tokens) =
      .ok (node, ⟨[.blockEnd, .streamEnd], h⟩)) :
    FirstDocument.ofTokens
        (.blockMappingStart :: .key :: .scalar key true :: .value :: token :: tokens) =
      .ok ⟨some (.mapping {} [(.scalar {} key true, node)]), false⟩ := by
  simp [FirstDocument.ofTokens, readRoot, startsExplicitly,
    readNode_entry key hends hvalue, ok_bind, pure, Except.pure]

end Tree

/-! ## The value -/

section Value

variable {key word text : String} {value : Value}

theorem bindNode_entry (key word : String) :
    bindNode {} (.mapping {} [(.scalar {} key true, .scalar {} word true)]) =
      .ok (.mapping none [(.scalar none key true, .scalar none word true)],
        { nodes := 4 }) :=
  rfl

theorem nodeValue_scalar (h : plainValue text = .ok value) (anchors : Anchors)
    (depth : Nat) : nodeValue anchors depth (.scalar none text true) = pure value := by
  have hcontent (inside : Option (Bound → Resolution Value)) :
      contentValue inside (.scalar none text true) = pure value := by
    simp only [contentValue, scalarValue, if_true, h]
    rfl
  cases depth with
  | zero => exact hcontent none
  | succ depth => exact hcontent (some (nodeValue anchors depth))

theorem nodeValue_entry {name : Value} (hkey : plainValue key = .ok name)
    (hvalue : plainValue word = .ok value) (anchors : Anchors) {depth : Nat}
    (hdepth : 0 < depth) :
    nodeValue anchors depth
      (.mapping none [(.scalar none key true, .scalar none word true)]) =
        pure (.mapping [(name, value)]) := by
  obtain ⟨inside, rfl⟩ := Nat.exists_eq_add_one.2 hdepth
  have hcontent : contentValue (some (nodeValue anchors inside))
      (.mapping none [(.scalar none key true, .scalar none word true)]) =
        pure (.mapping [(name, value)]) := by
    simp only [contentValue, collectEntries, nodeValue_scalar hkey,
      nodeValue_scalar hvalue, pure_bind]
    rfl
  exact hcontent

/-- The meaning of a plain scalar has no keys to merge. -/
theorem mergeKeys_of_plainValue (h : plainValue text = .ok value) :
    mergeKeys value = .ok value := by
  have hinteger {found : Value} (hfound : integerValue? text = .ok (some found)) :
      mergeKeys found = .ok found := by
    rw [integerValue?] at hfound
    split at hfound
    · cases hfound
    split at hfound
    · cases hfound
      simp [mergeKeys]
    · cases hfound
    · cases hfound
  rw [plainValue] at h
  split at h
  · cases h
    simp [mergeKeys]
  split at h
  · cases h
    simp [mergeKeys]
  obtain ⟨found, hfound, h⟩ := bind_eq_ok.1 h
  cases found with
  | some integer =>
    cases h
    exact hinteger hfound
  | none =>
    dsimp only at h
    split at h
    · cases h
      simp [mergeKeys]
    split at h
    · cases h
      simp [mergeKeys]
    · cases h
      simp [mergeKeys]

theorem mergeKeys_entry (hkey : key ≠ mergeKey) (hvalue : mergeKeys value = .ok value) :
    mergeKeys (.mapping [(.string key, value)]) =
      .ok (.mapping [(.string key, value)]) := by
  have honce : mergeOnce [(.string key, value)] = .ok [(.string key, value)] := by
    simp [mergeOnce, takeMergeKey, Value.isName, hkey]
  rw [mergeKeys]
  split
  · rename_i fault heq
    cases honce.symm.trans heq
  · rename_i merged heq
    cases honce.symm.trans heq
    simp only [List.attach, List.attachWith, List.pmap, mapLastFirst, hvalue]
    rfl

end Value

/-- The tokens of a text with a plain key and a plain value. -/
def entryTokens (key word : String) : List Token :=
  [.blockMappingStart, .key, .scalar key true, .value, .scalar word true, .blockEnd,
    .streamEnd]

/-- A text with one plain entry is the mapping with this entry. -/
theorem read_entry {text key word : String} {value : Value}
    (htokens : tokens text = entryTokens key word)
    (hkey : plainValue key = .ok (.string key)) (hmerge : key ≠ mergeKey)
    (hvalue : plainValue word = .ok value) :
    read text = .ok (.mapping [(.string key, value)]) := by
  have htree := ofTokens_entry key rfl
    (readNode_scalar defaultHandles ⟨true, true⟩ word true [.blockEnd, .streamEnd])
  have hdepth : 0 < maxDepth := by decide
  have hnode := nodeValue_entry hkey hvalue { nodes := 4 } hdepth
  exact read_of_tokens htokens htree (bindNode_entry key word)
    (congrArg (StateT.run' · 0) hnode)
    (mergeKeys_entry hmerge (mergeKeys_of_plainValue hvalue))

end Routebook.Yaml
