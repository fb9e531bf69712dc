import DbSteward.Pass.Basic

/-!
# Settling tags

Tags that are no longer desired are removed, then new and changed ones are written.
-/

namespace DbSteward
namespace Pass

def removeTags (arn : String) (keys : List String) : Pass Unit :=
  if keys.isEmpty then pure ()
  else call (.removeTags arn keys) .update "RemoveTagsFromResource"

def addTags (arn : String) (tags : List Tag) : Pass Unit :=
  if tags.isEmpty then pure () else call (.addTags arn tags) .update "AddTagsToResource"

def settleTags (arn : String) (desired observed : List Tag) : Pass Unit := do
  removeTags arn (Tag.edit desired observed).removals
  addTags arn (Tag.edit desired observed).writes

def fetchTags (arn : String) : Pass (List Tag) :=
  call (.listTags arn) .readOne "ListTagsForResource"

end Pass
end DbSteward
