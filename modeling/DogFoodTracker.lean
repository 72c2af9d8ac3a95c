import DogFoodTracker.AppleLogin
import DogFoodTracker.Caregivers
import DogFoodTracker.Core.CachedVersions
import DogFoodTracker.Core.DocumentReference
import DogFoodTracker.Core.Progress
import DogFoodTracker.Core.RemoteDocumentCache
import DogFoodTracker.Firestore.Records
import DogFoodTracker.Immutable.SortedMap
import DogFoodTracker.Pets.Cards
import DogFoodTracker.Pets.LostUpdate
import DogFoodTracker.Pets.Removal
import DogFoodTracker.Pets.Settled
import DogFoodTracker.Pets.TreatsBounds
import DogFoodTracker.Session.Identity
import DogFoodTracker.Session.Listeners
import DogFoodTracker.Session.Login
import DogFoodTracker.Session.Presentation
import DogFoodTracker.Session.ProfileEdits
import DogFoodTracker.Session.ProfileLookups
